import NetworkModule.TestServer.LoginEvents

/-!
# Atomic login events

`SaveUserLoginEvent` swallows the exception of a rollback that fails, and the connection goes back
into the pool with the transaction open.  The next call that gets it goes on in that transaction.
A login event then commits the rows of the one that failed, and the row of
`PersistPlayerGameState` waits there although the call returns `true`
(`failed_rollback_mixes`).

As long as a rollback fails only in a lost connection, this does not happen, and what is committed
are the rows of some calls, all the rows of each (`loginEvents_atomic`).
-/

namespace NetworkModule.LoginEvents

open Database.Pool Transactions

/-- A rollback succeeds. -/
def Stage.settles (answer : Answer) : Stage → Bool
  | .rollback _ | .rollbackReset _ =>
      match answer with
      | .succeeds _ => true
      | _ => false
  | _ => true

/-- A rollback fails only in a lost connection. -/
def settles (s : State) : Act → Bool
  | .call i answer =>
      match s.pool.calls[i]? with
      | some (.lent c) => s.lost c || (s.stages i).settles answer
      | _ => true
  | _ => true

/-! ## One call -/

/-- The rows of the call may be committed. -/
def Stage.mayCommit : Stage → Bool
  | .resetAutocommit _ _ | .done (.executed _) => true
  | .rollback site | .rollbackReset site | .done (.threw site) =>
      site = .commitTransaction || site = .resetAutocommit || site = .statement
  | _ => false

/-- The session of a call that has come to the ODBC call. -/
def Stage.Fits (request : Request) (i : Nat) (session : Session Row) : Stage → Prop
  | .loginStatement | .resetAutocommit _ _ => session = ⟨false, []⟩
  | .profileStatement _ => session = ⟨false, [request.row i .insertUserLoginEvent]⟩
  | .commitTransaction _ _ =>
      session = ⟨false, [request.row i .insertUserLoginEvent, request.row i .upsertUserProfile]⟩
  | .rollback _ => True
  | .rollbackReset _ => session.pending = []
  | .beginTransaction | .statement | .done _ => session = ⟨true, []⟩

section
variable {request : Request} {i c : Nat} {answer : Answer} {store store' : Store Nat Row}
  {stage stage' : Stage}

/-- What may be committed stays so. -/
theorem next_mayCommit (h : stage.next request i c answer store = some (store', stage'))
    (hmay : stage.mayCommit = true) : stage'.mayCommit = true := by
  cases stage <;> cases answer <;> cases h <;> first | rfl | exact hmay

theorem next_fits (h : stage.next request i c answer store = some (store', stage'))
    (hok : stage.settles answer = true) (hs : stage.Fits request i (store.sessions c)) :
    stage'.Fits request i (store'.sessions c) := by
  cases stage with
  | beginTransaction =>
      cases answer <;> cases h
      · exact hs
      · exact hs
      · rw [Stage.Fits, sessions_autocommit_off_self, hs]
  | loginStatement =>
      have hself := (write_of_transaction (w := request.row i .insertUserLoginEvent)
        (congrArg Session.autocommit hs)).2
      cases answer <;> cases h
      · exact trivial
      · exact trivial
      · rw [Stage.Fits, hself, hs]
        rfl
  | profileStatement n =>
      have hself := (write_of_transaction (w := request.row i .upsertUserProfile)
        (congrArg Session.autocommit hs)).2
      cases answer <;> cases h
      · exact trivial
      · exact trivial
      · rw [Stage.Fits, hself, hs]
        rfl
  | commitTransaction n m =>
      cases answer <;> cases h
      · exact trivial
      · exact trivial
      · rw [Stage.Fits, sessions_commit_self, hs]
  | resetAutocommit n m =>
      cases answer <;> cases h
      · exact trivial
      · exact trivial
      · exact sessions_autocommit_on_self
  | rollback site =>
      cases answer <;> cases h
      · cases hok
      · cases hok
      · rw [Stage.Fits, sessions_rollback_self]
  | rollbackReset site =>
      cases answer <;> cases h
      · cases hok
      · cases hok
      · exact sessions_autocommit_on_self
  | statement =>
      have hwrite := write_of_autocommit (w := request.row i .updatePlayerGameState)
        (congrArg Session.autocommit hs)
      cases answer <;> cases h
      · exact hs
      · rw [hwrite]
        exact hs
      · rw [hwrite]
        exact hs
  | done outcome => cases h

/-- A call commits its rows all together, whether it comes to know that or not, and nothing
else. -/
theorem next_unit (h : stage.next request i c answer store = some (store', stage'))
    (hb : stage.belongs request = true) (hs : stage.Fits request i (store.sessions c)) :
    (store'.committed = store.committed ∧ (stage'.committed = true → stage.committed = true)) ∨
      (store'.committed = store.committed ++ request.rows i ∧ stage.mayCommit = false ∧
        stage'.mayCommit = true) := by
  cases stage with
  | beginTransaction =>
      cases answer <;> cases h <;> exact .inl ⟨rfl, id⟩
  | loginStatement =>
      have hlog := (write_of_transaction (w := request.row i .insertUserLoginEvent)
        (congrArg Session.autocommit hs)).1
      cases answer <;> cases h
      · exact .inl ⟨rfl, id⟩
      · exact .inl ⟨hlog, id⟩
      · exact .inl ⟨hlog, id⟩
  | profileStatement n =>
      have hlog := (write_of_transaction (w := request.row i .upsertUserProfile)
        (congrArg Session.autocommit hs)).1
      cases answer <;> cases h
      · exact .inl ⟨rfl, id⟩
      · exact .inl ⟨hlog, id⟩
      · exact .inl ⟨hlog, id⟩
  | commitTransaction n m =>
      have hrows : (store.commit c).committed = store.committed ++ request.rows i := by
        cases request with
        | saveUserLoginEvent userId username => rw [committed_commit, hs]; rfl
        | persistPlayerGameState userId stateData => cases hb
      cases answer <;> cases h
      · exact .inl ⟨rfl, id⟩
      · exact .inr ⟨hrows, rfl, rfl⟩
      · exact .inr ⟨hrows, rfl, rfl⟩
  | resetAutocommit n m =>
      have hnone : (store.setAutocommit c true).committed = store.committed := by
        rw [committed_autocommit_on, hs]
        exact List.append_nil _
      cases answer <;> cases h
      · exact .inl ⟨rfl, fun _ => rfl⟩
      · exact .inl ⟨rfl, fun _ => rfl⟩
      · exact .inl ⟨hnone, fun _ => rfl⟩
  | rollback site =>
      cases answer <;> cases h <;> exact .inl ⟨rfl, id⟩
  | rollbackReset site =>
      have hnone : (store.setAutocommit c true).committed = store.committed := by
        rw [committed_autocommit_on, hs]
        exact List.append_nil _
      cases answer <;> cases h
      · exact .inl ⟨rfl, id⟩
      · exact .inl ⟨rfl, id⟩
      · exact .inl ⟨hnone, id⟩
  | statement =>
      have hwrite := write_of_autocommit (w := request.row i .updatePlayerGameState)
        (congrArg Session.autocommit hs)
      have hrows : (store.write c (request.row i .updatePlayerGameState)).committed =
          store.committed ++ request.rows i := by
        cases request with
        | saveUserLoginEvent userId username => cases hb
        | persistPlayerGameState userId stateData => rw [hwrite]; rfl
      cases answer <;> cases h
      · exact .inl ⟨rfl, id⟩
      · exact .inr ⟨hrows, rfl, rfl⟩
      · exact .inr ⟨hrows, rfl, rfl⟩
  | done outcome => cases h

end

/-! ## All runs -/

section
variable {config : DatabaseConfig} {requests : Nat → Request} {s s' : State} {units : List Nat}

/-- What is committed are the rows of some calls, those of each call together.  A connection that
no call has is as it was made, or lost. -/
structure Atomic (requests : Nat → Request) (units : List Nat) (s : State) : Prop where
  nodup : units.Nodup
  committed : s.store.committed = units.flatMap fun i => (requests i).rows i
  known : ∀ i, (s.stages i).committed = true → i ∈ units
  may : ∀ i ∈ units, (s.stages i).mayCommit = true
  fits : ∀ i c, s.pool.calls[i]? = some (.lent c) →
    s.lost c = true ∨ (s.stages i).Fits (requests i) i (s.store.sessions c)
  idle : ∀ c, (∀ i : Nat, s.pool.calls[i]? ≠ some (.lent c)) →
    s.lost c = true ∨ s.store.sessions c = ⟨true, []⟩

theorem Atomic.start : Atomic requests [] (start requests) where
  nodup := List.nodup_nil
  committed := rfl
  known := fun i hi => by
    rw [LoginEvents.start] at hi
    cases hr : requests i <;> simp [hr, Request.first, Stage.committed] at hi
  may := fun i hi => by cases hi
  fits := fun i c hi => by cases hi
  idle := fun _ _ => .inr rfl

theorem Atomic.pool (h : Atomic requests units s) (hinv : Inv config requests s) {a : PoolAct}
    {pool : PoolSystem} (hgo : mayGo s a = true)
    (hs : Database.Pool.step config s.pool a = some pool) :
    Atomic requests units { s with pool } where
  nodup := h.nodup
  committed := h.committed
  known := h.known
  may := h.may
  fits := fun i c hi => by
    rcases lent_of_step hs hi with hold | ⟨hwaits, hact⟩
    · exact h.fits i c hold
    · -- The connection was idle.
      have hnone : ∀ j : Nat, s.pool.calls[j]? ≠ some (.lent c) := by
        intro j hj
        have hji : j = i := by
          rcases lent_stays hs hj with hstays | ⟨answers, ha⟩
          · exact holder_unique (hinv.sound.step hs) hstays hi
          · exact hact answers j ha
        subst hji
        rw [waits, hj] at hwaits
        cases hwaits
      rw [hinv.first i hwaits]
      refine (h.idle c hnone).imp_right fun hsession => ?_
      cases requests i <;> exact hsession
  idle := fun c hnone => by
    by_cases hlent : ∃ i : Nat, s.pool.calls[i]? = some (.lent c)
    · obtain ⟨i, hi⟩ := hlent
      rcases lent_stays hs hi with hstays | ⟨answers, rfl⟩
      · exact absurd hstays (hnone i)
      · -- The call has given it back.
        rw [mayGo, hi] at hgo
        refine (h.fits i c hi).imp_right fun hfits => ?_
        cases hstage : s.stages i with
        | done outcome => rwa [hstage] at hfits
        | _ =>
            rw [hstage] at hgo
            cases hgo
    · exact h.idle c fun i hi => hlent ⟨i, hi⟩

theorem Atomic.lose (h : Atomic requests units s) (c : Nat) : Atomic requests units (s.lose c) where
  nodup := h.nodup
  committed := h.committed
  known := h.known
  may := h.may
  fits := fun i d hi => by
    by_cases hd : d = c
    · exact .inl (hd ▸ Function.update_self ..)
    · rw [store_lose, sessions_rollback_of_ne hd]
      exact (h.fits i d hi).imp_left (Function.update_of_ne hd ..).trans
  idle := fun d hnone => by
    by_cases hd : d = c
    · exact .inl (hd ▸ Function.update_self ..)
    · rw [store_lose, sessions_rollback_of_ne hd]
      exact (h.idle d hnone).imp_left (Function.update_of_ne hd ..).trans

section
variable {i c : Nat} {answer : Answer} {store : Store Nat Row} {stage : Stage}

/-- A call goes on and commits nothing or its rows. -/
theorem Atomic.goOn (h : Atomic requests units s) (hinv : Inv config requests s)
    (hi : s.pool.calls[i]? = some (.lent c))
    (hs : (s.stages i).next (requests i) i c answer s.store = some (store, stage))
    (hfits : s.lost c = true ∨ stage.Fits (requests i) i (store.sessions c))
    {units' : List Nat} (hnodup : units'.Nodup) (hsub : units ⊆ units')
    (hnew : ∀ j ∈ units', j ∈ units ∨ j = i)
    (hcommitted : store.committed = units'.flatMap fun j => (requests j).rows j)
    (hknown : stage.committed = true → i ∈ units') (hmay : i ∈ units' → stage.mayCommit = true) :
    Atomic requests units' (s.goOn i store stage) where
  nodup := hnodup
  committed := hcommitted
  known := fun j hj => by
    by_cases hji : j = i
    · subst hji
      rw [stages_goOn_self] at hj
      exact hknown hj
    · rw [stages_goOn_of_ne hji] at hj
      exact hsub (h.known j hj)
  may := fun j hj => by
    by_cases hji : j = i
    · subst hji
      rw [stages_goOn_self]
      exact hmay hj
    · rw [stages_goOn_of_ne hji]
      exact h.may j ((hnew j hj).resolve_right hji)
  fits := fun j d hj => by
    by_cases hji : j = i
    · subst hji
      obtain rfl : c = d := CallPc.lent.inj (Option.some.inj (hi.symm.trans hj))
      rw [stages_goOn_self]
      exact hfits
    · have hd : d ≠ c := fun hdc => hji (holder_unique hinv.sound hj (hdc ▸ hi))
      rw [stages_goOn_of_ne hji, store_goOn, next_sessions hs hd]
      exact h.fits j d hj
  idle := fun d hnone => by
    have hd : d ≠ c := fun hdc => hnone i (hdc ▸ hi)
    rw [store_goOn, next_sessions hs hd]
    exact h.idle d hnone

theorem Atomic.call (h : Atomic requests units s) (hinv : Inv config requests s)
    (hi : s.pool.calls[i]? = some (.lent c)) (hlost : s.lost c = true → answer = .fails)
    (hok : s.lost c = true ∨ (s.stages i).settles answer = true)
    (hs : (s.stages i).next (requests i) i c answer s.store = some (store, stage)) :
    ∃ units', Atomic requests units' (s.goOn i store stage) := by
  have hmay : i ∈ units → stage.mayCommit = true := fun hmem => next_mayCommit hs (h.may i hmem)
  -- The call commits nothing.
  have hquiet : (s.lost c = true ∨ stage.Fits (requests i) i (store.sessions c)) →
      store.committed = s.store.committed →
      (stage.committed = true → (s.stages i).committed = true) →
      ∃ units', Atomic requests units' (s.goOn i store stage) :=
    fun hfits hlog hknown => ⟨units, h.goOn hinv hi hs hfits h.nodup (List.Subset.refl _)
      (fun j hj => .inl hj) (hlog.trans h.committed) (fun hc => h.known i (hknown hc)) hmay⟩
  rcases h.fits i c hi with hl | hfits
  · rw [hlost hl] at hs
    obtain ⟨rfl, hnot⟩ := next_of_fails hs
    exact hquiet (.inl hl) rfl fun hc => absurd hc (by simp [hnot])
  · have hfits' : s.lost c = true ∨ stage.Fits (requests i) i (store.sessions c) :=
      hok.imp_right fun hsettles => next_fits hs hsettles hfits
    rcases next_unit hs (hinv.belongs i) hfits with ⟨hlog, hknown⟩ | ⟨hlog, hnot, hyes⟩
    · exact hquiet hfits' hlog hknown
    · have hnotMem : i ∉ units := fun hmem => by
        rw [h.may i hmem] at hnot
        cases hnot
      refine ⟨units ++ [i], h.goOn hinv hi hs hfits' ?_ (List.subset_append_left _ _) ?_ ?_
        (fun _ => List.mem_concat_self) fun _ => hyes⟩
      · exact List.nodup_append'.mpr ⟨h.nodup, List.nodup_singleton i,
          List.disjoint_singleton.mpr hnotMem⟩
      · exact fun j hj => (List.mem_append.mp hj).imp_right List.mem_singleton.mp
      · rw [hlog, h.committed, List.flatMap_append, List.flatMap_singleton]

end

theorem Atomic.step {a : Act} (h : ∃ units, Atomic requests units s)
    (hinv : Inv config requests s) (hok : settles s a = true)
    (hs : LoginEvents.step config requests s a = some s') : ∃ units, Atomic requests units s' := by
  obtain ⟨units, h⟩ := h
  rcases step_cases hs with ⟨b, pool, rfl, hgo, hpool, rfl⟩ |
    ⟨i, c, answer, store, stage, rfl, hi, hlost, hnext, rfl⟩ | ⟨c, rfl, rfl⟩
  · exact ⟨units, h.pool hinv hgo hpool⟩
  · rw [settles, hi] at hok
    exact h.call hinv hi hlost (Bool.or_eq_true_iff.mp hok) hnext
  · exact ⟨units, h.lose c⟩

/-- A login event fails, and its rollback. -/
def notRolledBack : List Act :=
  .pool (.initializePool .database true 1 fun _ => 0) ::
    sampleCall 0 [.succeeds 0, .succeeds 1, .fails, .fails]

/-- A login event and a state. -/
def samplePersist : Nat → Request
  | 0 => .saveUserLoginEvent 1 "kim"
  | _ => .persistPlayerGameState 1 "{}"

/-- If a rollback fails only in a lost connection, what is committed are the rows of some calls,
each of them once and with all its rows together.  The calls that have executed their statements
are among them.  A call that has caught an exception is not, unless the exception came from
`CommitTransaction` or, for a single statement, from its execution.  A connection in the pool is
in autocommit mode and nothing waits in it, or it is lost. -/
theorem loginEvents_atomic {as : List Act}
    (hok : Machine.Meets (LoginEvents.step config requests) (fun s a => settles s a = true)
      (LoginEvents.start requests) as)
    (hrun : Machine.run (LoginEvents.step config requests) (LoginEvents.start requests) as =
      some s) :
    ∃ units : List Nat, units.Nodup ∧
      s.store.committed = units.flatMap (fun i => (requests i).rows i) ∧
      (∀ i result, s.stages i = .done (.executed result) → i ∈ units) ∧
      (∀ i site, s.stages i = .done (.threw site) → i ∈ units →
        site = .commitTransaction ∨ site = .resetAutocommit ∨ site = .statement) ∧
      ∀ c, (∀ i : Nat, s.pool.calls[i]? ≠ some (.lent c)) →
        s.lost c = true ∨ s.store.sessions c = ⟨true, []⟩ := by
  obtain ⟨-, units, h⟩ := Machine.run_invariant_of_meets
    (I := fun s => Inv config requests s ∧ ∃ units, Atomic requests units s)
    (fun _ _ _ hboth hok hs => ⟨hboth.1.step hs, Atomic.step hboth.2 hboth.1 hok hs⟩)
    ⟨Inv.start, [], Atomic.start⟩ hok hrun
  refine ⟨units, h.nodup, h.committed, fun i result hi => ?_, fun i site hi hmem => ?_, h.idle⟩
  · exact h.known i (by rw [hi]; rfl)
  · have hmay := h.may i hmem
    rw [hi, Stage.mayCommit] at hmay
    simpa [or_assoc] using hmay

/-- In a connection in which an event was rolled back, the next one is saved. -/
theorem loginEvents_atomic_rolledBack :
    ∃ s, Machine.run (LoginEvents.step ⟨1, 1⟩ sampleRequests) (LoginEvents.start sampleRequests)
        rolledBack = some s ∧
      ∃ units : List Nat, units.Nodup ∧ 0 ∉ units ∧ 1 ∈ units ∧
        s.store.committed = units.flatMap fun i => (sampleRequests i).rows i := by
  have hrun : (Machine.run (LoginEvents.step ⟨1, 1⟩ sampleRequests)
      (LoginEvents.start sampleRequests) rolledBack).any (fun s =>
        decide (s.stages 0 = .done (.threw .profileStatement) ∧
          s.stages 1 = .done (.executed true))) = true := by decide +kernel
  obtain ⟨s, hs, hstages⟩ := (Option.any_eq_true _ _).mp hrun
  obtain ⟨hfirst, hsecond⟩ := of_decide_eq_true hstages
  obtain ⟨units, hnodup, hcommitted, hknown, hmay, -⟩ :=
    loginEvents_atomic (by decide +kernel) hs
  refine ⟨s, hs, units, hnodup, fun hmem => ?_, hknown 1 true hsecond, hcommitted⟩
  have hsite := hmay 0 _ hfirst hmem
  simp at hsite

/-- If the rollback fails too, the next event commits the login of the first, without its profile.
A state that is saved in its place is not committed, and the call returns `true`. -/
theorem failed_rollback_mixes :
    (∃ s, Machine.run (LoginEvents.step ⟨1, 1⟩ sampleRequests) (LoginEvents.start sampleRequests)
        (notRolledBack ++
          sampleCall 1 [.succeeds 0, .succeeds 1, .succeeds 1, .succeeds 0, .succeeds 0]) = some s ∧
      s.stages 0 = .done (.threw .profileStatement) ∧
      s.store.committed =
        (sampleRequests 0).row 0 .insertUserLoginEvent :: (sampleRequests 1).rows 1) ∧
    ∃ s, Machine.run (LoginEvents.step ⟨1, 1⟩ samplePersist) (LoginEvents.start samplePersist)
        (notRolledBack ++ sampleCall 1 [.succeeds 1]) = some s ∧
      s.stages 1 = .done (.executed true) ∧ s.store.committed = [] := by
  have hmixed : (Machine.run (LoginEvents.step ⟨1, 1⟩ sampleRequests)
      (LoginEvents.start sampleRequests) (notRolledBack ++
        sampleCall 1 [.succeeds 0, .succeeds 1, .succeeds 1, .succeeds 0, .succeeds 0])).any
      (fun s => decide (s.stages 0 = .done (.threw .profileStatement) ∧
        s.store.committed =
          (sampleRequests 0).row 0 .insertUserLoginEvent :: (sampleRequests 1).rows 1)) = true := by
    decide +kernel
  have hlate : (Machine.run (LoginEvents.step ⟨1, 1⟩ samplePersist)
      (LoginEvents.start samplePersist) (notRolledBack ++ sampleCall 1 [.succeeds 1])).any
      (fun s => decide (s.stages 1 = .done (.executed true) ∧ s.store.committed = [])) = true := by
    decide +kernel
  obtain ⟨s, hs, hp⟩ := (Option.any_eq_true _ _).mp hmixed
  obtain ⟨t, ht, hq⟩ := (Option.any_eq_true _ _).mp hlate
  exact ⟨⟨s, hs, of_decide_eq_true hp⟩, t, ht, of_decide_eq_true hq⟩

end

end NetworkModule.LoginEvents
