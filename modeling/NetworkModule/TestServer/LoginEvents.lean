import NetworkModule.Database.ConnectionPool
import NetworkModule.Lib.Transactions

/-!
# Login events

`TestServerDatabaseManager::SaveUserLoginEvent` inserts a login and updates the profile in one
transaction of a connection of the pool.  If a statement throws, it rolls the transaction back and
swallows what the rollback throws, and the destructor of `ScopedConnection` gives the connection
back as it is.  `PersistPlayerGameState` executes one statement on a connection that it takes to
be in autocommit mode.

The connections are those of the pool of `Database.ConnectionPool`, and any threads call
`Initialize`, `Shutdown` and the functions here.  Any of the ODBC calls may fail, and fail after
it has had its effect, and a connection may be lost, with what waits in its transaction.

A login event that has been reported as saved is saved once, whatever fails (`saved_once`).
-/

namespace NetworkModule.LoginEvents

open Database.Pool Transactions

/-! ## The calls -/

/-- The scripts, by the names of their files. -/
inductive Script where
  | insertUserLoginEvent
  | upsertUserProfile
  | updatePlayerGameState
  deriving DecidableEq, Repr

/-- A script that has been executed for a call, with its parameters. -/
structure Row where
  call : Nat
  script : Script
  userId : Int64
  text : String
  deriving DecidableEq

/-- A call and its arguments. -/
inductive Request where
  | saveUserLoginEvent (userId : UInt64) (username : String)
  | persistPlayerGameState (userId : UInt64) (stateData : String)

/-- Where an exception comes from. -/
inductive Site where
  | beginTransaction
  | loginStatement
  | profileStatement
  | commitTransaction
  | resetAutocommit
  | statement
  deriving DecidableEq, Repr

inductive Outcome where
  /-- The statements have been executed, and the call returns this. -/
  | executed (result : Bool)
  /-- It has caught an exception, and returns `false`. -/
  | threw (site : Site)
  deriving DecidableEq, Repr

/-- The ODBC call that a call executes next. -/
inductive Stage where
  | beginTransaction
  | loginStatement
  | profileStatement (loginRowsAffected : Int)
  | commitTransaction (loginRowsAffected profileRowsAffected : Int)
  /-- `CommitTransaction` after `SQLEndTran`. -/
  | resetAutocommit (loginRowsAffected profileRowsAffected : Int)
  /-- The lambda `rollback`. -/
  | rollback (site : Site)
  /-- `RollbackTransaction` after `SQLEndTran`. -/
  | rollbackReset (site : Site)
  /-- The statement of `PersistPlayerGameState`. -/
  | statement
  | done (outcome : Outcome)
  deriving DecidableEq, Repr

/-- How an ODBC call goes. -/
inductive Answer where
  /-- Without an effect. -/
  | fails
  /-- It has its effect, and is an error for the caller. -/
  | failsAfter
  /-- It affects so many rows, if it is a statement. -/
  | succeeds (rows : Int)
  deriving DecidableEq, Repr

/-- `static_cast<long long>(userId)` and the text are bound in each script. -/
def Request.row (request : Request) (i : Nat) (script : Script) : Row :=
  match request with
  | .saveUserLoginEvent userId username => ⟨i, script, userId.toInt64, username⟩
  | .persistPlayerGameState userId stateData => ⟨i, script, userId.toInt64, stateData⟩

/-- What a call writes. -/
def Request.rows (request : Request) (i : Nat) : List Row :=
  match request with
  | .saveUserLoginEvent .. =>
      [request.row i .insertUserLoginEvent, request.row i .upsertUserProfile]
  | .persistPlayerGameState .. => [request.row i .updatePlayerGameState]

/-- The first ODBC call. -/
def Request.first : Request → Stage
  | .saveUserLoginEvent .. => .beginTransaction
  | .persistPlayerGameState .. => .statement

/-- The next ODBC call of the call `i` in the connection `c`. -/
def Stage.next (request : Request) (i c : Nat) (answer : Answer) (store : Store Nat Row) :
    Stage → Option (Store Nat Row × Stage)
  | .beginTransaction =>
      -- An attribute that could not be set has not been set.
      match answer with
      | .succeeds _ => some (store.setAutocommit c false, .loginStatement)
      | _ => some (store, .done (.threw .beginTransaction))
  | .loginStatement =>
      let row := request.row i .insertUserLoginEvent
      match answer with
      | .fails => some (store, .rollback .loginStatement)
      | .failsAfter => some (store.write c row, .rollback .loginStatement)
      | .succeeds rows => some (store.write c row, .profileStatement rows)
  | .profileStatement loginRowsAffected =>
      let row := request.row i .upsertUserProfile
      match answer with
      | .fails => some (store, .rollback .profileStatement)
      | .failsAfter => some (store.write c row, .rollback .profileStatement)
      | .succeeds rows => some (store.write c row, .commitTransaction loginRowsAffected rows)
  | .commitTransaction loginRowsAffected profileRowsAffected =>
      match answer with
      | .fails => some (store, .rollback .commitTransaction)
      | .failsAfter => some (store.commit c, .rollback .commitTransaction)
      | .succeeds _ =>
          some (store.commit c, .resetAutocommit loginRowsAffected profileRowsAffected)
  | .resetAutocommit loginRowsAffected profileRowsAffected =>
      match answer with
      | .succeeds _ =>
          some (store.setAutocommit c true,
            .done (.executed (0 < loginRowsAffected && 0 < profileRowsAffected)))
      | _ => some (store, .rollback .resetAutocommit)
  | .rollback site =>
      match answer with
      | .fails => some (store, .done (.threw site))
      | .failsAfter => some (store.rollback c, .done (.threw site))
      | .succeeds _ => some (store.rollback c, .rollbackReset site)
  | .rollbackReset site =>
      match answer with
      | .succeeds _ => some (store.setAutocommit c true, .done (.threw site))
      | _ => some (store, .done (.threw site))
  | .statement =>
      let row := request.row i .updatePlayerGameState
      match answer with
      | .fails => some (store, .done (.threw .statement))
      | .failsAfter => some (store.write c row, .done (.threw .statement))
      | .succeeds rows => some (store.write c row, .done (.executed (0 < rows)))
  | .done _ => none

def Stage.isDone : Stage → Bool
  | .done _ => true
  | _ => false

/-! ## The system -/

structure State where
  pool : PoolSystem := {}
  store : Store Nat Row := {}
  /-- The connections that are lost. -/
  lost : Nat → Bool := fun _ => false
  /-- The ODBC calls that each call has come to. -/
  stages : Nat → Stage

/-- Before the first call. -/
def start (requests : Nat → Request) : State := { stages := fun i => (requests i).first }

/-- What happens next. -/
inductive Act where
  /-- In the pool.  A call of it that is a loan belongs to the call of the same number here. -/
  | pool (a : PoolAct)
  /-- The call `i` executes its next ODBC call. -/
  | call (i : Nat) (answer : Answer)
  /-- A connection is lost. -/
  | lose (c : Nat)

/-- The call `i` has come to the next ODBC call. -/
def State.goOn (s : State) (i : Nat) (store : Store Nat Row) (stage : Stage) : State :=
  { s with store, stages := Function.update s.stages i stage }

/-- The connection `c` is lost. -/
def State.lose (s : State) (c : Nat) : State :=
  { s with store := s.store.rollback c, lost := Function.update s.lost c true }

/-- The destructor of `ScopedConnection` runs when the call is over. -/
def mayGo (s : State) : PoolAct → Bool
  | .call i _ =>
      match s.pool.calls[i]? with
      | some (.lent _) => (s.stages i).isDone
      | _ => true
  | _ => true

/-- One step. -/
def step (config : DatabaseConfig) (requests : Nat → Request) (s : State) : Act → Option State
  | .pool a =>
      if mayGo s a then (Database.Pool.step config s.pool a).map fun pool => { s with pool }
      else none
  | .call i answer =>
      match s.pool.calls[i]? with
      | some (.lent c) =>
          if s.lost c = true ∧ answer ≠ .fails then none
          else
            ((s.stages i).next (requests i) i c answer s.store).map fun next =>
              s.goOn i next.1 next.2
      | _ => none
  | .lose c => some (s.lose c)

/-! ## Loans -/

section
variable {config : DatabaseConfig} {p p' : PoolSystem}

/-- A call of the pool that goes on. -/
inductive Moves : CallPc → CallPc → Prop where
  | lend {pc : CallPc} {c : Nat} (hpc : pc = .get ∨ pc = .waiting) : Moves pc (.lent c)
  | wait {pc : CallPc} (hpc : pc = .get ∨ pc = .waiting) : Moves pc .waiting
  | giveBack {c : Nat} : Moves (.lent c) (.returning c)
  | shutdown : Moves .shutdown .shutdownLock
  | finish {pc : CallPc} (hpc : ∀ c, pc ≠ .lent c) : Moves pc .returned

theorem wait_moves {i : Nat} {pc : CallPc} (hpc : pc = .get ∨ pc = .waiting) (answers : Answers) :
    ∃ pc', Moves pc pc' ∧ (p.wait i answers).calls = p.calls.set i pc' := by
  have hlent : ∀ c, pc ≠ .lent c := by
    rcases hpc with rfl | rfl <;> simp
  rw [PoolSystem.wait]
  split
  · split
    · exact ⟨_, .lend hpc, rfl⟩
    · exact ⟨_, .finish hlent, rfl⟩
  · split
    · exact ⟨_, .finish hlent, rfl⟩
    · exact ⟨_, .wait hpc, rfl⟩

theorem callStep_moves {i : Nat} {answers : Answers} {pc : CallPc}
    (hs : callStep p i answers pc = some p') :
    p'.calls = p.calls ∨ ∃ pc', Moves pc pc' ∧ p'.calls = p.calls.set i pc' := by
  cases pc with
  | get =>
      cases hs
      split
      · exact .inr (wait_moves (.inl rfl) answers)
      · exact .inr ⟨_, .finish fun _ => by simp, rfl⟩
  | waiting =>
      cases hs
      exact .inr (wait_moves (.inr rfl) answers)
  | lent c =>
      cases hs
      exact .inr ⟨_, .giveBack, rfl⟩
  | returning c =>
      cases hs
      exact .inr ⟨_, .finish fun _ => by simp, rfl⟩
  | shutdown =>
      rw [callStep] at hs
      split at hs
      · cases hs
        exact .inr ⟨_, .shutdown, rfl⟩
      · cases hs
        exact .inl rfl
  | shutdownLock =>
      cases hs
      exact .inr ⟨_, .finish fun _ => by simp, rfl⟩
  | returned => cases hs

/-- What a step of the pool does to its calls. -/
theorem calls_cases {a : PoolAct} (hs : Database.Pool.step config p a = some p') :
    p'.calls = p.calls ∨
      (∃ pc, (∀ c, pc ≠ .lent c) ∧ p'.calls = p.calls ++ [pc]) ∨
      ∃ i answers pc pc', a = .call i answers ∧ p.calls[i]? = some pc ∧ Moves pc pc' ∧
        p'.calls = p.calls.set i pc' := by
  cases a with
  | initializePool created connects opens now =>
      cases hs
      exact .inl rfl
  | getConnection =>
      cases hs
      refine .inr (.inl ⟨_, fun c => ?_, rfl⟩)
      split <;> simp
  | shutdown =>
      cases hs
      refine .inr (.inl ⟨_, fun c => ?_, rfl⟩)
      split <;> simp
  | call i answers =>
      obtain ⟨pc, hpc⟩ : ∃ pc, p.calls[i]? = some pc := by
        cases hi : p.calls[i]? with
        | none =>
            simp [Database.Pool.step, List.getD_eq_getElem?_getD, hi, callStep] at hs
        | some pc => exact ⟨pc, rfl⟩
      rw [Database.Pool.step, List.getD_eq_getElem?_getD, hpc, Option.getD_some] at hs
      rcases callStep_moves hs with heq | ⟨pc', hmove, heq⟩
      · exact .inl heq
      · exact .inr (.inr ⟨i, answers, pc, pc', rfl, hpc, hmove, heq⟩)
  | clear =>
      cases hs
      exact .inl rfl
  | cleanupIdleConnections now =>
      cases hs
      exact .inl rfl

/-- The call has no connection yet. -/
def waits (p : PoolSystem) (i : Nat) : Bool :=
  match p.calls[i]? with
  | some (.lent _) | some (.returning _) | some .returned => false
  | _ => true

theorem waits_of_step {a : PoolAct} (hs : Database.Pool.step config p a = some p') {i : Nat}
    (h : waits p' i = true) : waits p i = true := by
  rw [waits] at h ⊢
  rcases calls_cases hs with heq | ⟨pc, -, heq⟩ | ⟨j, -, pc, pc', -, hpc, hmove, heq⟩
  · rwa [heq] at h
  · rw [heq] at h
    by_cases hi : i < p.calls.length
    · rwa [List.getElem?_append_left hi] at h
    · rw [List.getElem?_eq_none (Nat.not_lt.mp hi)]
  · rw [heq] at h
    by_cases hij : j = i
    · subst hij
      rw [List.getElem?_set_self (List.getElem?_eq_some_iff.mp hpc).1] at h
      rw [hpc]
      cases hmove with
      | lend hpc => cases h
      | wait hpc => rcases hpc with rfl | rfl <;> rfl
      | giveBack => cases h
      | shutdown => rfl
      | finish hpc => cases h
    · rwa [List.getElem?_set_ne hij] at h

/-- A loan is old, or the call of the step has got it. -/
theorem lent_of_step {a : PoolAct} (hs : Database.Pool.step config p a = some p') {i c : Nat}
    (h : p'.calls[i]? = some (.lent c)) :
    p.calls[i]? = some (.lent c) ∨ waits p i = true ∧ ∀ answers j, a = .call j answers → j = i := by
  rw [waits]
  rcases calls_cases hs with heq | ⟨pc, hlent, heq⟩ | ⟨j, -, pc, pc', rfl, hpc, hmove, heq⟩
  · exact .inl (heq ▸ h)
  · rw [heq] at h
    by_cases hi : i < p.calls.length
    · rw [List.getElem?_append_left hi] at h
      exact .inl h
    · rw [List.getElem?_append_right (Nat.not_lt.mp hi), List.getElem?_singleton] at h
      split at h
      · exact absurd (Option.some.inj h) (hlent c)
      · cases h
  · rw [heq] at h
    by_cases hij : j = i
    · subst hij
      rw [List.getElem?_set_self (List.getElem?_eq_some_iff.mp hpc).1] at h
      obtain rfl := Option.some.inj h
      rw [hpc]
      cases hmove with
      | lend hpc =>
          refine .inr ⟨by rcases hpc with rfl | rfl <;> rfl, fun answers k hk => ?_⟩
          exact (PoolAct.call.inj hk).1.symm
    · rw [List.getElem?_set_ne hij] at h
      exact .inl h

/-- A loan that ends was given back by its call. -/
theorem lent_stays {a : PoolAct} (hs : Database.Pool.step config p a = some p') {i c : Nat}
    (h : p.calls[i]? = some (.lent c)) :
    p'.calls[i]? = some (.lent c) ∨ ∃ answers, a = .call i answers := by
  rcases calls_cases hs with heq | ⟨pc, -, heq⟩ | ⟨j, answers, pc, pc', rfl, hpc, -, heq⟩
  · exact .inl (heq ▸ h)
  · rw [heq, List.getElem?_append_left (List.getElem?_eq_some_iff.mp h).1]
    exact .inl h
  · by_cases hij : j = i
    · exact .inr ⟨answers, hij ▸ rfl⟩
    · rw [heq, List.getElem?_set_ne hij]
      exact .inl h

/-- No two calls have the same connection. -/
theorem holder_unique (h : Sound config p) {i j c : Nat}
    (hi : p.calls[i]? = some (.lent c)) (hj : p.calls[j]? = some (.lent c)) : i = j := by
  by_contra hij
  have hset := borrowers_set hi .returned c
  have hle := Tally.toNat_le_countP (CallPc.holds c) (l := p.calls.set i .returned)
    ((List.getElem?_set_ne hij).trans hj)
  have hone := h.once c
  have hholds : CallPc.holds c (.lent c) = true := decide_eq_true rfl
  have hnone : CallPc.holds c .returned = false := rfl
  rw [hholds] at hset hle
  rw [hnone] at hset
  simp only [Bool.toNat_true, Bool.toNat_false] at hset hle
  omega

end

/-! ## What a call may have written -/

/-- The call may have executed the script. -/
def Stage.mayHave (script : Script) : Stage → Bool
  | .beginTransaction | .loginStatement | .statement => false
  | .profileStatement _ => script = .insertUserLoginEvent
  | _ => true

/-- What a transaction holds, whatever earlier calls have left in it. -/
def Stage.Holds (request : Request) (i : Nat) (session : Session Row) : Stage → Prop
  | .loginStatement => session.autocommit = false
  | .profileStatement _ =>
      session.autocommit = false ∧ request.row i .insertUserLoginEvent ∈ session.pending
  | .commitTransaction _ _ =>
      session.autocommit = false ∧ request.row i .insertUserLoginEvent ∈ session.pending ∧
        request.row i .upsertUserProfile ∈ session.pending
  | _ => True

/-- `SQLEndTran` has committed, as far as the call knows. -/
def Stage.committed : Stage → Bool
  | .resetAutocommit _ _ | .done (.executed _) => true
  | _ => false

/-- A login event. -/
def Request.isSave : Request → Bool
  | .saveUserLoginEvent .. => true
  | .persistPlayerGameState .. => false

section
variable {config : DatabaseConfig} {requests : Nat → Request} {request : Request} {s s' : State}
  {i c : Nat} {answer : Answer} {store store' : Store Nat Row} {stage stage' : Stage}

@[simp] theorem row_call {script : Script} : (request.row i script).call = i := by
  cases request <;> rfl

@[simp] theorem row_script {script : Script} : (request.row i script).script = script := by
  cases request <;> rfl

/-- Only the session of the connection changes. -/
theorem next_sessions (h : stage.next request i c answer store = some (store', stage')) {d : Nat}
    (hd : d ≠ c) : store'.sessions d = store.sessions d := by
  cases stage <;> cases answer <;> cases h <;>
    first
    | rfl
    | exact sessions_write_of_ne hd
    | exact sessions_commit_of_ne hd
    | exact sessions_rollback_of_ne hd
    | exact sessions_setAutocommit_of_ne hd

/-- What is committed stays so. -/
theorem next_committed (h : stage.next request i c answer store = some (store', stage')) :
    store.committed <+: store'.committed := by
  have hwrite : ∀ row, store.committed <+: (store.write c row).committed := by
    intro row
    cases hauto : (store.sessions c).autocommit with
    | true =>
        rw [write_of_autocommit hauto]
        exact List.prefix_append _ _
    | false => rw [(write_of_transaction hauto).1]
  cases stage <;> cases answer <;> cases h <;>
    first
    | exact List.prefix_rfl
    | exact List.prefix_append _ _
    | exact hwrite _

/-- A row that is not old is one of the call. -/
theorem next_holds (h : stage.next request i c answer store = some (store', stage')) {row : Row}
    (hrow : store'.Holds row) :
    store.Holds row ∨ ∃ script, row = request.row i script ∧ stage'.mayHave script = true := by
  have hwrite : ∀ script, stage'.mayHave script = true →
      (store.write c (request.row i script)).Holds row →
      store.Holds row ∨ ∃ script, row = request.row i script ∧ stage'.mayHave script = true :=
    fun script hmay hw => (holds_write hw).symm.imp_right fun heq => ⟨script, heq, hmay⟩
  cases stage <;> cases answer <;> cases h <;>
    first
    | exact .inl hrow
    | exact .inl (holds_commit hrow)
    | exact .inl (holds_rollback hrow)
    | exact .inl (holds_setAutocommit hrow)
    | exact hwrite _ rfl hrow

theorem next_mayHave (h : stage.next request i c answer store = some (store', stage'))
    {script : Script} (hmay : stage.mayHave script = true) : stage'.mayHave script = true := by
  cases stage <;> cases answer <;> cases h <;> first | rfl | exact hmay | cases hmay

theorem next_distinct (h : stage.next request i c answer store = some (store', stage'))
    (hd : store.Distinct)
    (hnew : ∀ script, stage.mayHave script = false → ¬ store.Holds (request.row i script)) :
    store'.Distinct := by
  cases stage <;> cases answer <;> cases h <;>
    first
    | exact hd
    | exact hd.commit
    | exact hd.rollback
    | exact hd.setAutocommit _
    | exact hd.write (hnew _ rfl)

/-- The transaction has what the call has executed. -/
theorem next_transaction (h : stage.next request i c answer store = some (store', stage'))
    (hs : stage.Holds request i (store.sessions c)) :
    stage'.Holds request i (store'.sessions c) := by
  cases stage with
  | beginTransaction =>
      cases answer <;> cases h
      · exact trivial
      · exact trivial
      · exact congrArg Session.autocommit sessions_autocommit_off_self
  | loginStatement =>
      have hself := (write_of_transaction (w := request.row i .insertUserLoginEvent) hs).2
      cases answer <;> cases h
      · exact trivial
      · exact trivial
      · rw [Stage.Holds, hself]
        exact ⟨rfl, List.mem_concat_self⟩
  | profileStatement n =>
      have hself := (write_of_transaction (w := request.row i .upsertUserProfile) hs.1).2
      cases answer <;> cases h
      · exact trivial
      · exact trivial
      · rw [Stage.Holds, hself]
        exact ⟨rfl, List.mem_append_left _ hs.2, List.mem_concat_self⟩
  | _ => cases answer <;> cases h <;> exact trivial

/-- The stages of a request. -/
def Stage.belongs (request : Request) : Stage → Bool
  | .statement => !request.isSave
  | .done _ => true
  | _ => request.isSave

theorem first_belongs : request.first.belongs request = true := by
  cases request <;> rfl

theorem next_belongs (h : stage.next request i c answer store = some (store', stage'))
    (hb : stage.belongs request = true) : stage'.belongs request = true := by
  cases stage <;> cases answer <;> cases h <;> first | rfl | exact hb

/-- What the call has written is committed when it comes to know that. -/
theorem next_saved (h : stage.next request i c answer store = some (store', stage'))
    (hb : stage.belongs request = true) (hsave : request.isSave = true)
    (hs : stage.Holds request i (store.sessions c))
    (hold : stage.committed = true → ∀ row ∈ request.rows i, row ∈ store.committed)
    (hnew : stage'.committed = true) : ∀ row ∈ request.rows i, row ∈ store'.committed := by
  cases stage with
  | commitTransaction n m =>
      obtain ⟨-, hlogin, hprofile⟩ := hs
      have hrows : ∀ row ∈ request.rows i, row ∈ (store.sessions c).pending := by
        cases request with
        | saveUserLoginEvent userId username =>
            intro row hrow
            rcases List.mem_cons.mp hrow with rfl | hrow
            · exact hlogin
            · exact List.mem_singleton.mp hrow ▸ hprofile
        | persistPlayerGameState userId stateData => cases hsave
      cases answer <;> cases h
      · cases hnew
      · cases hnew
      · exact fun row hrow => List.mem_append_right _ (hrows row hrow)
  | resetAutocommit n m =>
      exact fun row hrow => (next_committed h).subset (hold rfl row hrow)
  | statement =>
      rw [Stage.belongs, hsave] at hb
      cases hb
  | _ => cases answer <;> cases h <;> cases hnew

end

/-! ## All runs -/

section
variable {config : DatabaseConfig} {requests : Nat → Request} {s s' : State}

@[simp] theorem stages_goOn_self {i : Nat} {store : Store Nat Row} {stage : Stage} :
    (s.goOn i store stage).stages i = stage :=
  Function.update_self ..

theorem stages_goOn_of_ne {i j : Nat} {store : Store Nat Row} {stage : Stage} (h : j ≠ i) :
    (s.goOn i store stage).stages j = s.stages j :=
  Function.update_of_ne h ..

@[simp] theorem store_goOn {i : Nat} {store : Store Nat Row} {stage : Stage} :
    (s.goOn i store stage).store = store := rfl

@[simp] theorem pool_goOn {i : Nat} {store : Store Nat Row} {stage : Stage} :
    (s.goOn i store stage).pool = s.pool := rfl

@[simp] theorem store_lose {c : Nat} : (s.lose c).store = s.store.rollback c := rfl

/-- What holds whatever fails. -/
structure Inv (config : DatabaseConfig) (requests : Nat → Request) (s : State) : Prop where
  sound : Sound config s.pool
  first : ∀ i, waits s.pool i = true → s.stages i = (requests i).first
  belongs : ∀ i, (s.stages i).belongs (requests i) = true
  distinct : s.store.Distinct
  written : ∀ row, s.store.Holds row → (s.stages row.call).mayHave row.script = true
  transaction : ∀ i c, s.pool.calls[i]? = some (.lent c) →
    s.lost c = true ∨ (s.stages i).Holds (requests i) i (s.store.sessions c)
  saved : ∀ i, (requests i).isSave = true → (s.stages i).committed = true →
    ∀ row ∈ (requests i).rows i, row ∈ s.store.committed

theorem Inv.start : Inv config requests (start requests) where
  sound := sound_start config
  first := fun _ _ => rfl
  belongs := fun _ => first_belongs
  distinct := distinct_start
  written := fun row hrow => by
    rcases hrow with hrow | ⟨c, hrow⟩ <;> cases hrow
  transaction := fun i c hi => by cases hi
  saved := fun i hsave hc => by
    rw [LoginEvents.start] at hc
    cases hr : requests i with
    | saveUserLoginEvent userId username => simp [hr, Request.first, Stage.committed] at hc
    | persistPlayerGameState userId stateData => simp [hr, Request.isSave] at hsave

theorem Inv.pool (h : Inv config requests s) {a : PoolAct} {pool : PoolSystem}
    (hs : Database.Pool.step config s.pool a = some pool) :
    Inv config requests { s with pool } where
  sound := h.sound.step hs
  first := fun i hi => h.first i (waits_of_step hs hi)
  belongs := h.belongs
  distinct := h.distinct
  written := h.written
  transaction := fun i c hi => by
    rcases lent_of_step hs hi with hold | ⟨hwaits, -⟩
    · exact h.transaction i c hold
    · refine .inr ?_
      rw [h.first i hwaits]
      cases requests i <;> exact trivial
  saved := h.saved

theorem Inv.lose (h : Inv config requests s) (c : Nat) :
    Inv config requests (s.lose c) where
  sound := h.sound
  first := h.first
  belongs := h.belongs
  distinct := h.distinct.rollback
  written := fun row hrow => h.written row (holds_rollback hrow)
  transaction := fun i d hi => by
    by_cases hd : d = c
    · exact .inl (hd ▸ Function.update_self ..)
    · rw [store_lose, sessions_rollback_of_ne hd]
      exact (h.transaction i d hi).imp_left (Function.update_of_ne hd ..).trans
  saved := h.saved

/-- In a lost connection a call only gives up. -/
theorem next_of_fails {request : Request} {i c : Nat} {store store' : Store Nat Row}
    {stage stage' : Stage} (h : stage.next request i c .fails store = some (store', stage')) :
    store' = store ∧ stage'.committed = false := by
  cases stage <;> cases h <;> exact ⟨rfl, rfl⟩

theorem Inv.call (h : Inv config requests s) {i c : Nat} {answer : Answer}
    (hi : s.pool.calls[i]? = some (.lent c)) (hlost : s.lost c = true → answer = .fails)
    {store : Store Nat Row} {stage : Stage}
    (hs : (s.stages i).next (requests i) i c answer s.store = some (store, stage)) :
    Inv config requests (s.goOn i store stage) where
  sound := h.sound
  first := fun j hj => by
    by_cases hji : j = i
    · rw [hji, waits, pool_goOn, hi] at hj
      cases hj
    · exact (stages_goOn_of_ne hji).trans (h.first j hj)
  belongs := fun j => by
    by_cases hji : j = i
    · subst hji
      rw [stages_goOn_self]
      exact next_belongs hs (h.belongs j)
    · rw [stages_goOn_of_ne hji]
      exact h.belongs j
  distinct := by
    refine next_distinct hs h.distinct fun script hmay hrow => ?_
    have hold := h.written _ hrow
    rw [row_call, row_script, hmay] at hold
    cases hold
  written := fun row hrow => by
    have hnew : row.call = i ∧ stage.mayHave row.script = true ∨
        (s.stages row.call).mayHave row.script = true := by
      rcases next_holds hs hrow with hold | ⟨script, rfl, hmay⟩
      · exact .inr (h.written row hold)
      · rw [row_call, row_script]
        exact .inl ⟨rfl, hmay⟩
    by_cases hji : row.call = i
    · rw [hji, stages_goOn_self]
      rcases hnew with ⟨-, hmay⟩ | hold
      · exact hmay
      · exact next_mayHave hs (hji ▸ hold)
    · rw [stages_goOn_of_ne hji]
      exact hnew.resolve_left fun hboth => hji hboth.1
  transaction := fun j d hj => by
    by_cases hji : j = i
    · subst hji
      obtain rfl : c = d := CallPc.lent.inj (Option.some.inj (hi.symm.trans hj))
      rw [stages_goOn_self]
      exact (h.transaction j c hi).imp_right (next_transaction hs)
    · have hd : d ≠ c := fun hdc => hji (holder_unique h.sound hj (hdc ▸ hi))
      rw [stages_goOn_of_ne hji, store_goOn, next_sessions hs hd]
      exact h.transaction j d hj
  saved := fun j hsave hj => by
    by_cases hji : j = i
    · subst hji
      rw [stages_goOn_self] at hj
      rcases h.transaction j c hi with hl | htransaction
      · rw [hlost hl] at hs
        rw [(next_of_fails hs).2] at hj
        cases hj
      · exact next_saved hs (h.belongs j) hsave htransaction (h.saved j hsave) hj
    · rw [stages_goOn_of_ne hji] at hj
      exact fun row hrow => (next_committed hs).subset (h.saved j hsave hj row hrow)

/-- What a step does. -/
theorem step_cases {a : Act} (hs : step config requests s a = some s') :
    (∃ b pool, a = .pool b ∧ mayGo s b = true ∧ Database.Pool.step config s.pool b = some pool ∧
        s' = { s with pool }) ∨
      (∃ i c answer store stage, a = .call i answer ∧ s.pool.calls[i]? = some (.lent c) ∧
        (s.lost c = true → answer = .fails) ∧
        (s.stages i).next (requests i) i c answer s.store = some (store, stage) ∧
        s' = s.goOn i store stage) ∨
      ∃ c, a = .lose c ∧ s' = s.lose c := by
  cases a with
  | pool b =>
      rw [step] at hs
      split at hs
      · next hgo =>
          obtain ⟨pool, hpool, rfl⟩ := Option.map_eq_some_iff.mp hs
          exact .inl ⟨b, pool, rfl, hgo, hpool, rfl⟩
      · cases hs
  | call i answer =>
      rw [step] at hs
      split at hs
      · next c hi =>
          split at hs
          · cases hs
          · next hlost =>
              obtain ⟨⟨store, stage⟩, hnext, rfl⟩ := Option.map_eq_some_iff.mp hs
              refine .inr (.inl ⟨i, c, answer, store, stage, rfl, hi, fun hl => ?_, hnext, rfl⟩)
              by_contra hne
              exact hlost ⟨hl, hne⟩
      · cases hs
  | lose c =>
      cases hs
      exact .inr (.inr ⟨c, rfl, rfl⟩)

theorem Inv.step {a : Act} (h : Inv config requests s) (hs : step config requests s a = some s') :
    Inv config requests s' := by
  rcases step_cases hs with ⟨b, pool, rfl, -, hpool, rfl⟩ |
    ⟨i, c, answer, store, stage, rfl, hi, hlost, hnext, rfl⟩ | ⟨c, rfl, rfl⟩
  · exact h.pool hpool
  · exact h.call hi hlost hnext
  · exact h.lose c

/-- Two login events. -/
def sampleRequests (i : Nat) : Request :=
  if i = 0 then .saveUserLoginEvent 1 "kim" else .saveUserLoginEvent 2 "lee"

/-- A call gets a connection, these are the answers to its ODBC calls, and it gives the connection
back. -/
def sampleCall (i : Nat) (answers : List Answer) : List Act :=
  [.pool .getConnection, .pool (.call i {})] ++ answers.map (.call i) ++
    [.pool (.call i {}), .pool (.call i {})]

/-- In the only connection a profile cannot be updated, and the event is rolled back.  The second
event is saved. -/
def rolledBack : List Act :=
  .pool (.initializePool .database true 1 fun _ => 0) ::
    (sampleCall 0 [.succeeds 0, .succeeds 1, .fails, .succeeds 0, .succeeds 0] ++
      sampleCall 1 [.succeeds 0, .succeeds 1, .succeeds 1, .succeeds 0, .succeeds 0])

/-- A login event that has been reported as saved is in the database with its login and its
profile, each of them once, whatever fails in this call or in others. -/
theorem saved_once {as : List Act}
    (hrun : Machine.run (LoginEvents.step config requests) (start requests) as = some s)
    {i : Nat} {result : Bool} (hsave : (requests i).isSave = true)
    (hdone : s.stages i = .done (.executed result)) :
    ∀ row ∈ (requests i).rows i, s.store.committed.count row = 1 := by
  have h : Inv config requests s :=
    Machine.run_invariant (fun _ _ _ h hs => h.step hs) Inv.start hrun
  intro row hrow
  refine List.count_eq_one_of_mem h.distinct.committed ?_
  exact h.saved i hsave (by rw [hdone]; rfl) row hrow

theorem saved_once_rolledBack :
    ∃ s, Machine.run (LoginEvents.step ⟨1, 1⟩ sampleRequests) (LoginEvents.start sampleRequests)
        rolledBack = some s ∧
      ∀ row ∈ (sampleRequests 1).rows 1, s.store.committed.count row = 1 := by
  have hrun : (Machine.run (LoginEvents.step ⟨1, 1⟩ sampleRequests)
      (LoginEvents.start sampleRequests) rolledBack).any
      (fun s => decide (s.stages 1 = .done (.executed true))) = true := by decide +kernel
  obtain ⟨s, hs, hdone⟩ := (Option.any_eq_true _ _).mp hrun
  exact ⟨s, hs, saved_once hs rfl (of_decide_eq_true hdone)⟩

end

end NetworkModule.LoginEvents
