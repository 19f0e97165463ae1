import NetworkModule.Database.Statements
import NetworkModule.Lib.Machine

/-!
# Batches of the three statements

`AddBatch` moves the current parameters into the batch, and `ExecuteBatch` executes the query
once with each entry of it.  The loop is cut short by an exception where SQLite prepares or binds
and where ODBC binds, and never over libpq.  The batch is cleared after the loop only.  So an
exception leaves the whole batch, with the entries that have been executed.

A `Backend` is what the three implementations differ in.  `Batched` adds the batch to
a statement, with a record of what was added, executed and returned.  `once_step_iff` says when one
call keeps every entry executed at most once, and `always_atMostOnce_iff` says it of the runs.

`Close` is left out.
-/

namespace NetworkModule.Database.Statements

open Machine

/-! ## Answers of the database -/

/-- What the database answers to one round of the loop in `ExecuteBatch`. -/
structure Answer where
  /-- `sqlite3_prepare_v2` accepts the query. -/
  prepares : Bool
  /-- The parameter with this index can be bound. -/
  binds : ℕ → Bool
  /-- The affected rows, if the execution succeeds. -/
  rows : Option Int32
  /-- The text of the error, if there is one. -/
  errmsg : String

/-- Every parameter can be bound. -/
def Answer.bindsAll {P : Type} (answer : Answer) (params : List P) : Bool :=
  (List.range params.length).all answer.binds

/-! ## Statements with a batch -/

/-- An execution of an entry of a batch.  Entries are numbered as they are added. -/
structure Executed (V : Type) where
  entry : ℕ
  execution : Execution V
  result : Int32
  deriving DecidableEq, Repr

/-- A call of `ExecuteBatch` that returned. -/
structure Returned (V : Type) where
  /-- The number of the first entry of the batch. -/
  first : ℕ
  size : ℕ
  executed : List (Executed V)
  results : List Int32
  deriving DecidableEq, Repr

/-- A statement and its batch, `mBatchParams` (`mBatches` over ODBC).  The other fields say what
has happened. -/
structure Batched (S P V : Type) where
  statement : S
  mBatchParams : List (List P) := []
  /-- All entries that were ever added. -/
  added : List (List P) := []
  /-- How many of them were cleared out of the batch. -/
  cleared : ℕ := 0
  executed : List (Executed V) := []
  /-- An exception has left entries in the batch that had been executed. -/
  interrupted : Bool := false
  returned : List (Returned V) := []
  deriving DecidableEq, Repr

/-- A call of a statement.  The database answers the rounds of an `ExecuteBatch`. -/
inductive BatchCall (F : Type) where
  | call (call : StatementCall F)
  | addBatch
  | executeBatch (answers : ℕ → Answer)

/-- One implementation of batches. -/
structure Backend (F S P V : Type) where
  /-- A call that leaves the batch alone. -/
  call : S → StatementCall F → S
  /-- `AddBatch`: the new entry, if there is one, and the statement without it. -/
  addBatch : S → Option (List P) × S
  /-- What `ExecuteBatch` throws before its loop. -/
  check : S → Option String
  /-- The body of the loop.  It throws, or it executes the entry and pushes a result. -/
  round : S → List P → Answer → S × Except String (Execution V × Int32)
  /-- What follows the loop, besides clearing the batch. -/
  finish : S → S
  /-- Nothing fails before the entry is executed. -/
  ready : List P → Answer → Bool
  /-- What the database is sent for a parameter. -/
  value : P → V
  round_of_ready : ∀ s params answer, ready params answer = true →
    ∃ s' execution result, round s params answer = (s', .ok (execution, result)) ∧
      execution.params = params.map value
  round_of_not_ready : ∀ s params answer, ready params answer = false →
    ∃ s' what, round s params answer = (s', .error what)

section
variable {F S P V : Type}

/-- The loop in `ExecuteBatch`, with what it executes.  `first` is the number of the first entry of
the batch, and `i` counts the rounds. -/
def Backend.batchLoop (b : Backend F S P V) (answers : ℕ → Answer) (first : ℕ) :
    S → ℕ → List (List P) → S × List (Executed V) × Except String (List Int32)
  | s, _, [] => (s, [], .ok [])
  | s, i, params :: batch =>
      match b.round s params (answers i) with
      | (s', .error what) => (s', [], .error what)
      | (s', .ok (execution, result)) =>
          let rest := b.batchLoop answers first s' (i + 1) batch
          (rest.1, ⟨first + i, execution, result⟩ :: rest.2.1, rest.2.2.map (result :: ·))

/-- `ExecuteBatch`, and what it returns or throws. -/
def Backend.executeBatch (b : Backend F S P V) (answers : ℕ → Answer) (s : Batched S P V) :
    Batched S P V × Except String (List Int32) :=
  match b.check s.statement with
  | some what => (s, .error what)
  | none =>
      match b.batchLoop answers s.cleared s.statement 0 s.mBatchParams with
      | (statement, executed, .error what) =>
          ({ s with
              statement
              executed := s.executed ++ executed
              interrupted := s.interrupted || !executed.isEmpty }, .error what)
      | (statement, executed, .ok results) =>
          ({ statement := b.finish statement
             mBatchParams := []
             added := s.added
             cleared := s.added.length
             executed := s.executed ++ executed
             interrupted := false
             returned := s.returned ++ [⟨s.cleared, s.mBatchParams.length, executed, results⟩] },
            .ok results)

/-- `AddBatch`. -/
def Backend.add (b : Backend F S P V) (s : Batched S P V) : Batched S P V :=
  match b.addBatch s.statement with
  | (none, statement) => { s with statement }
  | (some params, statement) =>
      { s with
          statement
          mBatchParams := s.mBatchParams ++ [params]
          added := s.added ++ [params] }

def Backend.step (b : Backend F S P V) (s : Batched S P V) : BatchCall F → Batched S P V
  | .call call => { s with statement := b.call s.statement call }
  | .addBatch => b.add s
  | .executeBatch answers => (b.executeBatch answers s).1

/-- The calls as the labels of a machine.  Each of them can be made at any time. -/
def Backend.machine (b : Backend F S P V) (s : Batched S P V) (call : BatchCall F) :
    Option (Batched S P V) :=
  some (b.step s call)

end

/-! ## SQLite -/

section
variable {F : Type} [Zero F]

def SQLiteStatement.addBatch (s : SQLiteStatement F) :
    Option (List (SQLiteParam F)) × SQLiteStatement F :=
  (some s.mCurrentParams, { s with mCurrentParams := [] })

/-- `PrepareStmt`, `BindAll` and `sqlite3_step` in `ExecuteBatch`. -/
def SQLiteStatement.round (s : SQLiteStatement F) (paramSet : List (SQLiteParam F))
    (answer : Answer) : SQLiteStatement F × Except String (Execution (SQLiteValue F) × Int32) :=
  (s,
    if answer.prepares = false then .error ("SQLite prepare failed: " ++ answer.errmsg)
    else if answer.bindsAll paramSet = false then .error ("SQLite bind failed: " ++ answer.errmsg)
    else .ok (⟨cStr s.mQuery, paramSet.map SQLiteParam.bound⟩, answer.rows.getD (-1)))

def sqlite : Backend F (SQLiteStatement F) (SQLiteParam F) (SQLiteValue F) where
  call s call := (s.step call).1
  addBatch := SQLiteStatement.addBatch
  check _ := none
  round := SQLiteStatement.round
  finish s := s
  ready params answer := answer.prepares && answer.bindsAll params
  value := SQLiteParam.bound
  round_of_ready s params answer h := by
    obtain ⟨hprepares, hbinds⟩ := Bool.and_eq_true_iff.mp h
    simp [SQLiteStatement.round, hprepares, hbinds]
  round_of_not_ready s params answer h := by
    rcases Bool.and_eq_false_iff.mp h with hprepares | hbinds
    · simp [SQLiteStatement.round, hprepares]
    · cases hprepares : answer.prepares <;> simp [SQLiteStatement.round, hprepares, hbinds]

/-! ## ODBC -/

/-- Nothing is added while there is no query. -/
def ODBCStatement.addBatch (s : ODBCStatement F) :
    Option (List (ParamValue F)) × ODBCStatement F :=
  if s.mQuery = [] then (none, s)
  else (some s.mParams, { s with mParams := [], mPrepared := false })

/-- `BindParameters` from the index `i` on: the parameters, and whether all of them were bound. -/
def ODBCStatement.bindParameters (answer : Answer) :
    ℕ → List (ParamValue F) → List (ParamValue F) × Bool
  | _, [] => ([], true)
  | i, p :: params =>
      if answer.binds i then
        let rest := bindParameters answer (i + 1) params
        (p.ready :: rest.1, rest.2)
      else (p.ready :: params, false)

/-- `BindParameters` and `SQLExecDirectA` in `ExecuteBatch`. -/
def ODBCStatement.round (s : ODBCStatement F) (params : List (ParamValue F)) (answer : Answer) :
    ODBCStatement F × Except String (Execution (OdbcValue F) × Int32) :=
  let bound := bindParameters answer 0 params
  ({ s with mParams := bound.1, mPrepared := false },
    if bound.2 = false then .error ("Bind parameter: " ++ answer.errmsg)
    else .ok (⟨cStr s.mQuery, bound.1.map ParamValue.read⟩, answer.rows.getD (-1)))

theorem ODBCStatement.bindParameters_snd (answer : Answer) (i : ℕ) (params : List (ParamValue F)) :
    (bindParameters answer i params).2 = (List.range' i params.length).all answer.binds := by
  induction params generalizing i with
  | nil => rfl
  | cons p params ih =>
      rw [bindParameters, List.length_cons, List.range'_succ, List.all_cons]
      split
      · next hbinds => rw [ih, hbinds, Bool.true_and]
      · next hbinds => rw [Bool.eq_false_iff.mpr hbinds, Bool.false_and]

theorem ODBCStatement.bindParameters_fst {answer : Answer} {i : ℕ} {params : List (ParamValue F)}
    (h : (bindParameters answer i params).2 = true) :
    (bindParameters answer i params).1 = params.map ParamValue.ready := by
  induction params generalizing i with
  | nil => rfl
  | cons p params ih =>
      rw [bindParameters] at h ⊢
      by_cases hbinds : answer.binds i = true
      · rw [if_pos hbinds] at h ⊢
        exact congrArg (p.ready :: ·) (ih h)
      · rw [if_neg hbinds] at h
        cases h

def odbc : Backend F (ODBCStatement F) (ParamValue F) (OdbcValue F) where
  call s call := (s.step call).1
  addBatch := ODBCStatement.addBatch
  check _ := none
  round := ODBCStatement.round
  finish s := { s with mParams := [], mPrepared := false }
  ready params answer := answer.bindsAll params
  value p := p.ready.read
  round_of_ready s params answer h := by
    have hbinds : (ODBCStatement.bindParameters answer 0 params).2 = true := by
      rw [ODBCStatement.bindParameters_snd, ← List.range_eq_range']
      exact h
    simp [ODBCStatement.round, hbinds, ODBCStatement.bindParameters_fst hbinds]
  round_of_not_ready s params answer h := by
    have hbinds : (ODBCStatement.bindParameters answer 0 params).2 = false := by
      rw [ODBCStatement.bindParameters_snd, ← List.range_eq_range']
      exact h
    simp [ODBCStatement.round, hbinds]

end

/-! ## PostgreSQL -/

section
variable {F : Type}

def PostgreSQLStatement.addBatch (s : PostgreSQLStatement) :
    Option (List PgParam) × PostgreSQLStatement :=
  (some s.mCurrentParams, { s with mCurrentParams := [] })

/-- `RunExecParams` in `ExecuteBatch`.  An entry that fails is logged. -/
def PostgreSQLStatement.round (s : PostgreSQLStatement) (paramSet : List PgParam)
    (answer : Answer) :
    PostgreSQLStatement × Except String (Execution (Option (List Char)) × Int32) :=
  (s, .ok (⟨cStr s.mQuery, paramSet.map PgParam.pointer⟩, answer.rows.getD (-1)))

def postgreSQL (doubleText : F → List Char) :
    Backend F PostgreSQLStatement PgParam (Option (List Char)) where
  call s call := (s.step doubleText call).1
  addBatch := PostgreSQLStatement.addBatch
  check := PostgreSQLStatement.ensureQuery
  round := PostgreSQLStatement.round
  finish s := s
  ready _ _ := true
  value := PgParam.pointer
  round_of_ready _ _ _ _ := ⟨_, _, _, rfl, rfl⟩
  round_of_not_ready _ _ _ h := absurd h (by decide)

end

/-! ## At most once -/

section
variable {F S P V : Type}

/-- The results of a call of `ExecuteBatch` belong to the entries of its batch, in order. -/
structure Returned.Belongs (executed : List (Executed V)) (r : Returned V) : Prop where
  executed : ∀ e ∈ r.executed, e ∈ executed
  entries : r.executed.map Executed.entry = List.range' r.first r.size
  results : r.results = r.executed.map Executed.result

/-- What is recorded belongs to the entries that were added. -/
structure Belongs (b : Backend F S P V) (s : Batched S P V) : Prop where
  /-- An execution has the parameters of its entry. -/
  params : ∀ e ∈ s.executed, ∃ params, s.added[e.entry]? = some params ∧
    e.execution.params = params.map b.value
  returned : ∀ r ∈ s.returned, r.Belongs s.executed
  /-- Together the results belong to all entries that have left the batch, in order. -/
  cleared : (s.returned.flatMap fun r => r.executed.map Executed.entry) = List.range s.cleared

/-- No entry has been executed twice, and the results belong to the entries. -/
structure AtMostOnce (b : Backend F S P V) (s : Batched S P V) : Prop where
  once : (s.executed.map Executed.entry).Nodup
  belongs : Belongs b s

/-- If an exception has left executed entries in the batch, then the first entry of it fails again
before it is executed. -/
def NoRepeat (b : Backend F S P V) (s : Batched S P V) : BatchCall F → Prop
  | .executeBatch answers => b.check s.statement = none → s.interrupted = true →
      ∀ params ∈ s.mBatchParams.head?, b.ready params (answers 0) = false
  | .addBatch => True
  | .call _ => True

/-! ## The loop -/

/-- What the loop over `batch` has executed, and how it ended. -/
structure LoopSpec (b : Backend F S P V) (answers : ℕ → Answer) (first i : ℕ)
    (batch : List (List P)) (executed : List (Executed V)) (outcome : Except String (List Int32)) :
    Prop where
  entries : executed.map Executed.entry = List.range' (first + i) executed.length
  params : executed.map (fun e => e.execution.params) <+: batch.map (List.map b.value)
  returned : ∀ results, outcome = .ok results →
    executed.length = batch.length ∧ results = executed.map Executed.result
  thrown : ∀ what, outcome = .error what → ∃ params n, b.ready params (answers n) = false
  nil_of_not_ready : ∀ params ∈ batch.head?, b.ready params (answers i) = false → executed = []
  ne_nil_of_ready : ∀ params ∈ batch.head?, b.ready params (answers i) = true → executed ≠ []

section
variable {b : Backend F S P V} {answers : ℕ → Answer} {first i : ℕ} {params : List P}
  {batch : List (List P)} {executed : List (Executed V)} {outcome : Except String (List Int32)}

theorem LoopSpec.nil : LoopSpec b answers first i [] [] (.ok []) := by
  refine ⟨rfl, List.nil_prefix, fun results h => ?_, fun what h => ?_, fun _ h => ?_,
    fun _ h => ?_⟩
  · cases h
    exact ⟨rfl, rfl⟩
  · cases h
  · cases h
  · cases h

/-- A round that throws ends the loop. -/
theorem LoopSpec.throw (hready : b.ready params (answers i) = false) (what : String) :
    LoopSpec b answers first i (params :: batch) [] (.error what) := by
  refine ⟨rfl, List.nil_prefix, fun results h => ?_, fun _ _ => ⟨params, i, hready⟩,
    fun _ _ _ => rfl, fun _ hmem h => ?_⟩
  · cases h
  · rw [← Option.some.inj hmem, hready] at h
    cases h

/-- A round that executes its entry. -/
theorem LoopSpec.cons (hrest : LoopSpec b answers first (i + 1) batch executed outcome)
    (hready : b.ready params (answers i) = true) {execution : Execution V}
    (hparams : execution.params = params.map b.value) (result : Int32) :
    LoopSpec b answers first i (params :: batch) (⟨first + i, execution, result⟩ :: executed)
      (outcome.map (result :: ·)) := by
  refine ⟨?_, ?_, fun results h => ?_, fun what h => ?_, fun _ hmem h => ?_,
    fun _ _ _ => List.cons_ne_nil _ _⟩
  · rw [List.map_cons, hrest.entries, List.length_cons, List.range'_succ]
    rfl
  · rw [List.map_cons, List.map_cons, hparams]
    exact (List.prefix_cons_inj _).mpr hrest.params
  · cases outcome with
    | error what => cases h
    | ok rest =>
        cases h
        obtain ⟨hlen, rfl⟩ := hrest.returned rest rfl
        exact ⟨congrArg (· + 1) hlen, rfl⟩
  · cases outcome with
    | error what => exact hrest.thrown what rfl
    | ok rest => cases h
  · rw [← Option.some.inj hmem, hready] at h
    cases h

theorem Backend.batchLoop_spec (b : Backend F S P V) (answers : ℕ → Answer) (first : ℕ) (s : S)
    (i : ℕ) (batch : List (List P)) :
    LoopSpec b answers first i batch (b.batchLoop answers first s i batch).2.1
      (b.batchLoop answers first s i batch).2.2 := by
  induction batch generalizing s i with
  | nil => exact .nil
  | cons params batch ih =>
      rw [Backend.batchLoop]
      cases hready : b.ready params (answers i) with
      | false =>
          obtain ⟨s', what, hround⟩ := b.round_of_not_ready s params (answers i) hready
          rw [hround]
          exact .throw hready what
      | true =>
          obtain ⟨s', execution, result, hround, hparams⟩ :=
            b.round_of_ready s params (answers i) hready
          rw [hround]
          exact (ih s' (i + 1)).cons hready hparams result

/-- An execution is that of an entry of the batch, with its parameters. -/
theorem LoopSpec.exists_entry (h : LoopSpec b answers first i batch executed outcome)
    {e : Executed V} (he : e ∈ executed) :
    ∃ n params, e.entry = first + i + n ∧ batch[n]? = some params ∧
      e.execution.params = params.map b.value := by
  obtain ⟨n, hn⟩ := List.mem_iff_getElem?.mp he
  have hlt : n < executed.length := (List.getElem?_eq_some_iff.mp hn).1
  have hentry : e.entry = first + i + n := by
    have h1 : (executed.map Executed.entry)[n]? = some e.entry := by rw [List.getElem?_map, hn]; rfl
    rw [h.entries, List.getElem?_range' hlt, Nat.one_mul] at h1
    exact (Option.some.inj h1).symm
  obtain ⟨rest, hrest⟩ := h.params
  have hparams : (batch.map (List.map b.value))[n]? = some e.execution.params := by
    rw [← hrest, List.getElem?_append_left (by rw [List.length_map]; exact hlt), List.getElem?_map,
      hn]
    rfl
  rw [List.getElem?_map] at hparams
  obtain ⟨params, hbatch, hvalue⟩ := Option.map_eq_some_iff.mp hparams
  exact ⟨n, params, hentry, hbatch, hvalue.symm⟩

/-- The loop executes nothing exactly if the first entry fails before it is executed. -/
theorem LoopSpec.eq_nil_iff (h : LoopSpec b answers first i batch executed outcome) :
    executed = [] ↔ ∀ params ∈ batch.head?, b.ready params (answers i) = false := by
  constructor
  · intro hnil params hmem
    exact Bool.eq_false_iff.mpr fun hready => h.ne_nil_of_ready params hmem hready hnil
  · intro hnot
    cases batch with
    | nil => exact List.map_eq_nil_iff.mp (List.prefix_nil.mp h.params)
    | cons params batch => exact h.nil_of_not_ready params rfl (hnot params rfl)

theorem LoopSpec.first_mem (h : LoopSpec b answers first i batch executed outcome)
    (hne : executed ≠ []) : first + i ∈ executed.map Executed.entry := by
  rw [h.entries, List.mem_range'_1]
  exact ⟨le_refl _, Nat.lt_add_of_pos_right (List.length_pos_iff.mpr hne)⟩

end

/-- The three ways in which `ExecuteBatch` ends. -/
theorem Backend.executeBatch_cases (b : Backend F S P V) (answers : ℕ → Answer)
    (s : Batched S P V) :
    (∃ what, b.check s.statement = some what ∧ (b.executeBatch answers s).1 = s) ∨
      b.check s.statement = none ∧ ∃ statement executed outcome,
        LoopSpec b answers s.cleared 0 s.mBatchParams executed outcome ∧
        ((∃ what, outcome = .error what ∧
            (b.executeBatch answers s).1 =
              { s with
                  statement
                  executed := s.executed ++ executed
                  interrupted := s.interrupted || !executed.isEmpty }) ∨
          ∃ results, outcome = .ok results ∧
            (b.executeBatch answers s).1 =
              { statement
                mBatchParams := []
                added := s.added
                cleared := s.added.length
                executed := s.executed ++ executed
                interrupted := false
                returned := s.returned ++
                  [⟨s.cleared, s.mBatchParams.length, executed, results⟩] }) := by
  rw [Backend.executeBatch]
  cases hcheck : b.check s.statement with
  | some what => exact .inl ⟨what, rfl, rfl⟩
  | none =>
      refine .inr ⟨rfl, ?_⟩
      have hspec := b.batchLoop_spec answers s.cleared s.statement 0 s.mBatchParams
      rcases hloop : b.batchLoop answers s.cleared s.statement 0 s.mBatchParams with
        ⟨statement, executed, outcome⟩
      rw [hloop] at hspec
      cases outcome with
      | error what => exact ⟨statement, executed, _, hspec, .inl ⟨what, rfl, rfl⟩⟩
      | ok results => exact ⟨b.finish statement, executed, _, hspec, .inr ⟨results, rfl, rfl⟩⟩

/-! ## The batch that an exception leaves -/

/-- What holds between the calls. -/
structure Kept (b : Backend F S P V) (s : Batched S P V) : Prop where
  cleared_le : s.cleared ≤ s.added.length
  batch : s.mBatchParams = s.added.drop s.cleared
  before : s.interrupted = false → ∀ e ∈ s.executed, e.entry < s.cleared
  again : s.interrupted = true → s.cleared ∈ s.executed.map Executed.entry
  belongs : Belongs b s

section
variable {b : Backend F S P V} {answers : ℕ → Answer} {s : Batched S P V}
  {executed : List (Executed V)} {outcome : Except String (List Int32)}

theorem kept_init (b : Backend F S P V) (statement : S) : Kept b { statement } where
  cleared_le := le_refl _
  batch := rfl
  before _ e he := by cases he
  again h := by cases h
  belongs := ⟨fun e he => (by cases he), fun r hr => (by cases hr), rfl⟩

theorem Returned.Belongs.append {old : List (Executed V)} {r : Returned V} (h : r.Belongs old)
    (executed : List (Executed V)) : r.Belongs (old ++ executed) :=
  ⟨fun e he => List.mem_append_left executed (h.executed e he), h.entries, h.results⟩

/-- The parameters belong to the entries also after one more loop. -/
theorem Kept.params_append (h : Kept b s)
    (hspec : LoopSpec b answers s.cleared 0 s.mBatchParams executed outcome) :
    ∀ e ∈ s.executed ++ executed, ∃ params, s.added[e.entry]? = some params ∧
      e.execution.params = params.map b.value := by
  intro e he
  rcases List.mem_append.mp he with hold | hnew
  · exact h.belongs.params e hold
  · obtain ⟨n, params, hentry, hbatch, hvalue⟩ := hspec.exists_entry hnew
    rw [h.batch, List.getElem?_drop] at hbatch
    exact ⟨params, by rw [hentry]; exact hbatch, hvalue⟩

theorem Kept.add (h : Kept b s) : Kept b (b.add s) := by
  rw [Backend.add]
  rcases b.addBatch s.statement with ⟨none | params, statement⟩
  · exact ⟨h.cleared_le, h.batch, h.before, h.again, h.belongs.params, h.belongs.returned,
      h.belongs.cleared⟩
  · refine ⟨?_, ?_, h.before, h.again, fun e he => ?_, h.belongs.returned, h.belongs.cleared⟩
    · rw [List.length_append]
      exact h.cleared_le.trans (Nat.le_add_right _ _)
    · rw [List.drop_append_of_le_length h.cleared_le, ← h.batch]
    · obtain ⟨params', hentry, hvalue⟩ := h.belongs.params e he
      have hlt := (List.getElem?_eq_some_iff.mp hentry).1
      exact ⟨params', by rw [List.getElem?_append_left hlt]; exact hentry, hvalue⟩

/-- An exception leaves the batch as it was. -/
theorem Kept.interrupt (h : Kept b s)
    (hspec : LoopSpec b answers s.cleared 0 s.mBatchParams executed outcome) (statement : S) :
    Kept b
      { s with
          statement
          executed := s.executed ++ executed
          interrupted := s.interrupted || !executed.isEmpty } := by
  refine ⟨h.cleared_le, h.batch, fun hnot => ?_, fun hint => ?_, h.params_append hspec,
    fun r hr => ?_, h.belongs.cleared⟩
  · obtain ⟨hs, hempty⟩ := Bool.or_eq_false_iff.mp hnot
    have hnil : executed = [] := by simpa using hempty
    rw [hnil, List.append_nil]
    exact h.before hs
  · rw [List.map_append, List.mem_append]
    rcases Bool.or_eq_true_iff.mp hint with hs | hnonempty
    · exact .inl (h.again hs)
    · exact .inr (hspec.first_mem (by simpa using hnonempty))
  · exact (h.belongs.returned r hr).append executed

/-- A loop that ends has executed the whole batch. -/
theorem Kept.finish (h : Kept b s) {results : List Int32}
    (hspec : LoopSpec b answers s.cleared 0 s.mBatchParams executed (.ok results))
    (statement : S) :
    Kept b
      { statement
        mBatchParams := []
        added := s.added
        cleared := s.added.length
        executed := s.executed ++ executed
        interrupted := false
        returned := s.returned ++ [⟨s.cleared, s.mBatchParams.length, executed, results⟩] } := by
  obtain ⟨hlen, hresults⟩ := hspec.returned results rfl
  have hentries : executed.map Executed.entry =
      List.range' s.cleared s.mBatchParams.length := by
    rw [hspec.entries, hlen]
    rfl
  refine ⟨le_refl _, List.drop_length.symm, fun _ e he => ?_, fun hint => ?_,
    h.params_append hspec, fun r hr => ?_, ?_⟩
  · obtain ⟨params, hentry, -⟩ := h.params_append hspec e he
    exact (List.getElem?_eq_some_iff.mp hentry).1
  · cases hint
  · rcases List.mem_append.mp hr with hold | hnew
    · exact (h.belongs.returned r hold).append executed
    · rw [List.mem_singleton.mp hnew]
      exact ⟨fun e he => List.mem_append_right _ he, hentries, hresults⟩
  · have hsum : s.cleared + s.mBatchParams.length = s.added.length := by
      rw [h.batch, List.length_drop]
      exact Nat.add_sub_of_le h.cleared_le
    rw [List.flatMap_append, h.belongs.cleared, List.flatMap_singleton, hentries,
      List.range_eq_range', List.range_eq_range', ← hsum, ← List.range'_append_1, Nat.zero_add]

theorem Kept.step (h : Kept b s) (call : BatchCall F) : Kept b (b.step s call) := by
  cases call with
  | call call =>
      exact ⟨h.cleared_le, h.batch, h.before, h.again, h.belongs.params, h.belongs.returned,
        h.belongs.cleared⟩
  | addBatch => exact h.add
  | executeBatch answers =>
      rw [Backend.step]
      rcases b.executeBatch_cases answers s with
        ⟨what, -, heq⟩ | ⟨-, statement, executed, outcome, hspec, hout⟩
      · rw [heq]
        exact h
      · rcases hout with ⟨what, -, heq⟩ | ⟨results, rfl, heq⟩
        · rw [heq]
          exact h.interrupt hspec statement
        · rw [heq]
          exact h.finish hspec statement

/-! ## One call -/

/-- A loop repeats an execution exactly if it executes entries that an exception has left. -/
theorem Kept.nodup_append_iff (h : Kept b s) (honce : (s.executed.map Executed.entry).Nodup)
    (hspec : LoopSpec b answers s.cleared 0 s.mBatchParams executed outcome) :
    ((s.executed ++ executed).map Executed.entry).Nodup ↔
      (s.interrupted = true → executed = []) := by
  rw [List.map_append, List.nodup_append']
  constructor
  · rintro ⟨-, -, hdisjoint⟩ hint
    by_contra hne
    exact hdisjoint (h.again hint) (hspec.first_mem hne)
  · intro hnil
    refine ⟨honce, ?_, fun n hold hnew => ?_⟩
    · rw [hspec.entries]
      exact List.nodup_range'
    · cases hint : s.interrupted with
      | true =>
          rw [hnil hint] at hnew
          cases hnew
      | false =>
          obtain ⟨e, he, rfl⟩ := List.mem_map.mp hold
          rw [hspec.entries, List.mem_range'_1] at hnew
          exact absurd (h.before hint e he) (Nat.not_lt.mpr hnew.1)

/-- A call keeps every entry executed at most once exactly if it repeats nothing. -/
theorem once_step_iff (h : Kept b s) (honce : (s.executed.map Executed.entry).Nodup)
    (call : BatchCall F) :
    ((b.step s call).executed.map Executed.entry).Nodup ↔ NoRepeat b s call := by
  cases call with
  | call call => exact iff_of_true honce trivial
  | addBatch =>
      rw [Backend.step, Backend.add]
      rcases b.addBatch s.statement with ⟨none | params, statement⟩
      · exact iff_of_true honce trivial
      · exact iff_of_true honce trivial
  | executeBatch answers =>
      rw [Backend.step, NoRepeat]
      rcases b.executeBatch_cases answers s with
        ⟨what, hcheck, heq⟩ | ⟨hcheck, statement, executed, outcome, hspec, hout⟩
      · rw [heq]
        refine iff_of_true honce fun hnone => ?_
        rw [hcheck] at hnone
        cases hnone
      · have hiff := h.nodup_append_iff honce hspec
        rw [hspec.eq_nil_iff] at hiff
        rw [forall_prop_of_true hcheck, ← hiff]
        rcases hout with ⟨what, -, heq⟩ | ⟨results, -, heq⟩
        · rw [heq]
        · rw [heq]

end

/-! ## Runs -/

/-- In a run every entry is executed at most once exactly if no call repeats an execution. -/
theorem always_atMostOnce_iff (b : Backend F S P V) (statement : S) (calls : List (BatchCall F)) :
    Always b.machine (AtMostOnce b) { statement } calls ↔
      Meets b.machine (NoRepeat b) { statement } calls := by
  obtain ⟨t, hrun⟩ := run_total b.step { statement } calls
  refine always_iff_meets_of_holds (I := Kept b) ?_ ?_ ?_ (kept_init b statement)
    ⟨List.nodup_nil, (kept_init b statement).belongs⟩ hrun
  · rintro s call _ h ⟨⟩
    exact h.step call
  · rintro s call _ h hs hok ⟨⟩
    exact ⟨(once_step_iff h hs.once call).mpr hok, (h.step call).belongs⟩
  · rintro s call _ h hs hno ⟨⟩
    exact fun hs' => hno ((once_step_iff h hs.once call).mp hs'.once)

/-- Where nothing fails before an entry is executed, no exception leaves executed entries. -/
theorem interrupted_step {b : Backend F S P V}
    (hready : ∀ params answer, b.ready params answer = true) {s : Batched S P V}
    (h : s.interrupted = false) (call : BatchCall F) : (b.step s call).interrupted = false := by
  cases call with
  | call call => exact h
  | addBatch =>
      rw [Backend.step, Backend.add]
      rcases b.addBatch s.statement with ⟨none | params, statement⟩
      · exact h
      · exact h
  | executeBatch answers =>
      rw [Backend.step]
      rcases b.executeBatch_cases answers s with
        ⟨what, -, heq⟩ | ⟨-, statement, executed, outcome, hspec, hout⟩
      · rw [heq]
        exact h
      · rcases hout with ⟨what, rfl, -⟩ | ⟨results, -, heq⟩
        · obtain ⟨params, n, hnot⟩ := hspec.thrown what rfl
          rw [hready] at hnot
          cases hnot
        · rw [heq]

theorem always_atMostOnce_of_ready {b : Backend F S P V}
    (hready : ∀ params answer, b.ready params answer = true) (statement : S)
    (calls : List (BatchCall F)) : Always b.machine (AtMostOnce b) { statement } calls := by
  rw [always_atMostOnce_iff]
  have hmeets : Meets b.machine (fun _ _ => True) { statement } calls :=
    Meets.of_forall_mem (fun _ _ => trivial) _
  refine (meets_congr (I := fun s => s.interrupted = false) ?_ ?_ rfl).mp hmeets
  · rintro s call _ h ⟨⟩
    exact interrupted_step hready h call
  · intro s call h
    refine iff_of_true trivial ?_
    cases call with
    | call call | addBatch => exact trivial
    | executeBatch answers =>
        intro _ hint
        rw [h] at hint
        cases hint

end

/-- PostgreSQL executes every entry at most once.  SQLite and ODBC do exactly as long as no
`ExecuteBatch` repeats what an exception has left. -/
theorem batches_atMostOnce_iff {F : Type} [Zero F] (doubleText : F → List Char)
    (calls : List (BatchCall F)) :
    (Always sqlite.machine (AtMostOnce sqlite) { statement := {} } calls ↔
      Meets sqlite.machine (NoRepeat sqlite) { statement := {} } calls) ∧
    (Always odbc.machine (AtMostOnce odbc) { statement := {} } calls ↔
      Meets odbc.machine (NoRepeat odbc) { statement := {} } calls) ∧
    Always (postgreSQL doubleText).machine (AtMostOnce (postgreSQL doubleText))
      { statement := {} } calls :=
  ⟨always_atMostOnce_iff sqlite {} calls, always_atMostOnce_iff odbc {} calls,
    always_atMostOnce_of_ready (b := postgreSQL doubleText) (fun _ _ => rfl) {} calls⟩

/-- Every parameter but one fails, as where the query has one placeholder. -/
def onePlaceholder (_ : ℕ) : Answer where
  prepares := true
  binds index := index = 0
  rows := some 1
  errmsg := "column index out of range"

/-- The second entry has a parameter too many.  The batch is executed again after the
exception. -/
def retriedBatch : List (BatchCall ℤ) :=
  [.call (.setQuery "INSERT INTO t VALUES (?)".toList), .call (.bindParameter 1 (.int 1)),
    .addBatch, .call (.bindParameter 1 (.int 2)), .call (.bindParameter 2 (.int 3)), .addBatch,
    .executeBatch onePlaceholder, .executeBatch onePlaceholder]

/-- SQLite inserts the first row twice. -/
theorem not_atMostOnce_retriedBatch :
    ¬ Always sqlite.machine (AtMostOnce sqlite) { statement := {} } retriedBatch := by
  intro h
  have hrun : (run sqlite.machine { statement := {} } retriedBatch).map
      (fun s => s.executed.map Executed.entry) = some [0, 0] := by decide +kernel
  obtain ⟨t, ht, hentries⟩ := Option.map_eq_some_iff.mp hrun
  have honce := (h retriedBatch t (List.prefix_refl _) ht).once
  rw [hentries] at honce
  exact absurd honce (by decide)

end NetworkModule.Database.Statements
