import NetworkModule.Lib.CppText
import NetworkModule.Lib.Transducer

/-!
# One statement, three backends

`IStatement` (`ServerEngine/Interfaces/IStatement.h`) is implemented over ODBC
(`ODBCDatabase.cpp`), over SQLite (`SQLiteDatabase.cpp`) and over libpq
(`PostgreSQLDatabase.cpp`).  Each implementation is a transducer: a call changes the fields
of the object and makes it send the database some executions, with the text of the query
and one value for each parameter.

`Statement` says what the interface promises.  `SetQuery` replaces the query,
`ClearParameters` drops the bindings, and `Execute` or `ExecuteUpdate` runs the query once
with what is bound.

The driver always succeeds.  What it answers, time limits, batches and `ExecuteQuery` are left
out.  The type `F` is `double`, `doubleText` is `std::to_string` for it, and `readDouble` is
how the database reads a number that PostgreSQL is given as text.
-/

namespace NetworkModule.Database.Statements

open Transducer (outputs Steps)

/-! ## Strings and vectors -/

/-- What a C function sees of `text.c_str()`. -/
def cStr (text : List Char) : List Char := text.takeWhile fun c => c ≠ Char.ofNat 0

/-- `std::to_string` of an integer. -/
def intText (i : Int) : List Char :=
  if i < 0 then '-' :: CppText.decimal i.natAbs else CppText.decimal i.natAbs

/-- `if (params.size() < index) params.resize(index)`, and then `f` on `params[index - 1]`. -/
def put {α : Type} (d : α) (params : List α) (index : ℕ+) (f : α → α) : List α :=
  (params ++ List.replicate (index - params.length) d).modify index.natPred f

/-! ## The interface -/

/-- What a caller binds. -/
inductive Value (F : Type) where
  | text (value : List Char)
  | int (value : Int32)
  | int64 (value : Int64)
  | double (value : F)
  | bool (value : Bool)
  | null
  deriving DecidableEq, Repr

/-- A call of an `IStatement`.  `BindNullParameter` binds `Value.null`. -/
inductive StatementCall (F : Type) where
  | setQuery (query : List Char)
  | bindParameter (index : ℕ+) (value : Value F)
  | clearParameters
  | execute
  | executeUpdate
  deriving DecidableEq, Repr

/-- An execution that the database is sent. -/
structure Execution (V : Type) where
  query : List Char
  params : List V
  deriving DecidableEq, Repr

/-- What the calls so far amount to. -/
structure Statement (F : Type) where
  query : List Char := []
  /-- The parameters bound since the last `ClearParameters`. -/
  params : List (Value F) := []
  /-- The parameters bound since the last `ClearParameters` or `SetQuery`. -/
  recent : List (Value F) := []
  /-- There has been an execution since the last `ClearParameters` or `SetQuery`. -/
  executed : Bool := false
  deriving DecidableEq, Repr

def StatementCall.executes {F : Type} : StatementCall F → Bool
  | .execute | .executeUpdate => true
  | _ => false

section
variable {F : Type}

/-- The meaning of a call. -/
def Statement.step (s : Statement F) : StatementCall F → Statement F × List (Execution (Value F))
  | .setQuery query => ({ s with query, recent := [], executed := false }, [])
  | .bindParameter index value =>
      ({ s with
          params := put .null s.params index fun _ => value
          recent := put .null s.recent index fun _ => value }, [])
  | .clearParameters => ({ s with params := [], recent := [], executed := false }, [])
  | .execute | .executeUpdate => ({ s with executed := true }, [⟨s.query, s.params⟩])

/-! ## ODBC -/

inductive OdbcType where
  | text | int | int64 | double | bool | null
  deriving DecidableEq, Repr

def SQL_NTS : Int := -3
def SQL_NULL_DATA : Int := -1

/-- `ODBCStatement::ParamValue`. -/
structure ParamValue (F : Type) [Zero F] where
  type : OdbcType := .null
  text : List Char := []
  intVal : Int32 := 0
  int64Val : Int64 := 0
  doubleVal : F := 0
  indicator : Int := SQL_NULL_DATA
  deriving DecidableEq, Repr

/-- A parameter as the ODBC driver sends it, under its SQL type. -/
inductive OdbcValue (F : Type) where
  | varchar (value : List Char)
  | integer (value : Int32)
  | bit (value : UInt8)
  | bigint (value : Int64)
  | double (value : F)
  | null
  deriving DecidableEq, Repr

variable [Zero F]

structure ODBCStatement (F : Type) [Zero F] where
  mQuery : List Char := []
  mParams : List (ParamValue F) := []
  mPrepared : Bool := false
  deriving DecidableEq, Repr

/-- What the overloads of `BindParameter` and `BindNullParameter` assign to the slot. -/
def ParamValue.assign (value : Value F) (p : ParamValue F) : ParamValue F :=
  match value with
  | .text value => { p with type := .text, text := value, indicator := SQL_NTS }
  | .int value => { p with type := .int, intVal := value, indicator := 0 }
  | .int64 value => { p with type := .int64, int64Val := value, indicator := 0 }
  | .double value => { p with type := .double, doubleVal := value, indicator := 0 }
  | .bool value => { p with type := .bool, intVal := if value then 1 else 0, indicator := 0 }
  | .null => { p with type := .null, indicator := SQL_NULL_DATA }

/-- What the loop in `BindParameters` assigns to the slot before it binds it. -/
def ParamValue.ready (p : ParamValue F) : ParamValue F :=
  match p.type with
  | .text => { p with indicator := SQL_NTS }
  | .int | .bool | .int64 | .double => { p with indicator := 0 }
  | .null => { p with indicator := SQL_NULL_DATA }

/-- What the driver reads through the pointers that `SQLBindParameter` was given. -/
def ParamValue.read (p : ParamValue F) : OdbcValue F :=
  if p.indicator = SQL_NULL_DATA then .null
  else
    match p.type with
    | .text => .varchar (cStr p.text)
    | .int => .integer p.intVal
    | .bool => .bit p.intVal.toUInt32.toUInt8
    | .int64 => .bigint p.int64Val
    | .double => .double p.doubleVal
    | .null => .null

/-- The bodies of `Execute` and `ExecuteUpdate` up to the answer of the driver, which are the
same. -/
def ODBCStatement.send (s : ODBCStatement F) : ODBCStatement F × List (Execution (OdbcValue F)) :=
  if s.mPrepared then (s, [])
  else
    -- `BindParameters()`, then `SQLExecDirectA`.
    let mParams := s.mParams.map ParamValue.ready
    ({ s with mParams, mPrepared := true }, [⟨cStr s.mQuery, mParams.map ParamValue.read⟩])

def ODBCStatement.step (s : ODBCStatement F) :
    StatementCall F → ODBCStatement F × List (Execution (OdbcValue F))
  | .setQuery query => ({ s with mQuery := query, mPrepared := false }, [])
  | .bindParameter index value =>
      ({ s with mParams := put {} s.mParams index (ParamValue.assign value) }, [])
  | .clearParameters => ({ s with mParams := [], mPrepared := false }, [])
  | .execute => s.send
  | .executeUpdate => s.send

/-! ## SQLite -/

inductive ParamType where
  | text | int | int64 | real | null
  deriving DecidableEq, Repr

/-- `SQLiteStatement::Param`. -/
structure SQLiteParam (F : Type) [Zero F] where
  type : ParamType := .null
  text : List Char := []
  int64Val : Int64 := 0
  realVal : F := 0
  deriving DecidableEq, Repr

/-- A parameter as SQLite stores it. -/
inductive SQLiteValue (F : Type) where
  | text (value : List Char)
  | integer (value : Int64)
  | real (value : F)
  | null
  deriving DecidableEq, Repr

/-- `mStmt` is always null where these calls leave it. -/
structure SQLiteStatement (F : Type) [Zero F] where
  mQuery : List Char := []
  mCurrentParams : List (SQLiteParam F) := []
  deriving DecidableEq, Repr

/-- What the overloads of `BindParameter` and `BindNullParameter` make of the slot.  A `bool` is
bound as the `int` 0 or 1. -/
def SQLiteParam.assign (value : Value F) (p : SQLiteParam F) : SQLiteParam F :=
  match value with
  | .text value => { type := .text, text := value }
  | .int value => { p with type := .int, int64Val := value.toInt64 }
  | .int64 value => { p with type := .int64, int64Val := value }
  | .double value => { p with type := .real, realVal := value }
  | .bool value => { p with type := .int, int64Val := (if value then 1 else 0 : Int32).toInt64 }
  | .null => { type := .null }

/-- The body of the loop in `BindAll`. -/
def SQLiteParam.bound (p : SQLiteParam F) : SQLiteValue F :=
  match p.type with
  | .text => .text (cStr p.text)
  | .int | .int64 => .integer p.int64Val
  | .real => .real p.realVal
  | .null => .null

/-- `PrepareStmt`, `BindAll` and `sqlite3_step` in `Execute` and `ExecuteUpdate`. -/
def SQLiteStatement.send (s : SQLiteStatement F) :
    SQLiteStatement F × List (Execution (SQLiteValue F)) :=
  (s, [⟨cStr s.mQuery, s.mCurrentParams.map SQLiteParam.bound⟩])

def SQLiteStatement.step (s : SQLiteStatement F) :
    StatementCall F → SQLiteStatement F × List (Execution (SQLiteValue F))
  | .setQuery query => ({ s with mQuery := query }, [])
  | .bindParameter index value =>
      ({ s with mCurrentParams := put {} s.mCurrentParams index (SQLiteParam.assign value) }, [])
  | .clearParameters => ({ s with mCurrentParams := [] }, [])
  | .execute => s.send
  | .executeUpdate => s.send

end

/-! ## PostgreSQL -/

/-- `PostgreSQLStatement::Param`. -/
structure PgParam where
  isNull : Bool := true
  value : List Char := []
  deriving DecidableEq, Repr

structure PostgreSQLStatement where
  mQuery : List Char := []
  mCurrentParams : List PgParam := []
  deriving DecidableEq, Repr

section
variable {F : Type}

/-- What the overloads of `BindParameter` and `BindNullParameter` make of the slot. -/
def PgParam.assign (doubleText : F → List Char) (value : Value F) (p : PgParam) : PgParam :=
  match value with
  | .text value => { p with isNull := false, value := value }
  | .int value => { p with isNull := false, value := intText value.toInt }
  | .int64 value => { p with isNull := false, value := intText value.toInt }
  | .double value => { p with isNull := false, value := doubleText value }
  | .bool value => { p with isNull := false, value := if value then ['t'] else ['f'] }
  | .null => {}

/-- The element of `values` in `RunExecParams`, a null pointer or a text. -/
def PgParam.pointer (p : PgParam) : Option (List Char) :=
  if p.isNull then none else some (cStr p.value)

/-- `EnsureQuery`: the message of the exception that it throws. -/
def PostgreSQLStatement.ensureQuery (s : PostgreSQLStatement) : Option String :=
  if s.mQuery = [] then some "PostgreSQLStatement: no query set (call SetQuery first)" else none

/-- `EnsureQuery` and `RunExecParams` in `Execute` and `ExecuteUpdate`. -/
def PostgreSQLStatement.send (s : PostgreSQLStatement) :
    PostgreSQLStatement × List (Execution (Option (List Char))) :=
  match s.ensureQuery with
  | some _ => (s, [])
  | none => (s, [⟨cStr s.mQuery, s.mCurrentParams.map PgParam.pointer⟩])

def PostgreSQLStatement.step (doubleText : F → List Char) (s : PostgreSQLStatement) :
    StatementCall F → PostgreSQLStatement × List (Execution (Option (List Char)))
  | .setQuery query => ({ s with mQuery := query, mCurrentParams := [] }, [])
  | .bindParameter index value =>
      ({ s with mCurrentParams := put {} s.mCurrentParams index (PgParam.assign doubleText value) },
        [])
  | .clearParameters => ({ s with mCurrentParams := [] }, [])
  | .execute => s.send
  | .executeUpdate => s.send

end

/-! ## Agreement -/

/-- Nothing is cut off where the text goes through a C string. -/
def NoNul (text : List Char) : Prop := Char.ofNat 0 ∉ text

section
variable {F : Type}

def Value.odbc : Value F → OdbcValue F
  | .text value => .varchar value
  | .int value => .integer value
  | .int64 value => .bigint value
  | .double value => .double value
  | .bool value => .bit (if value then 1 else 0)
  | .null => .null

/-- SQLite has one type of integers, and no type for `bool`. -/
def Value.sqlite : Value F → SQLiteValue F
  | .text value => .text value
  | .int value => .integer value.toInt64
  | .int64 value => .integer value
  | .double value => .real value
  | .bool value => .integer (if value then 1 else 0)
  | .null => .null

/-- The text, or the null pointer, is the value for PostgreSQL. -/
def Value.Pg (readDouble : List Char → F) : Value F → Option (List Char) → Prop
  | .text value, some sent => sent = value
  | .int value, some sent => sent = intText value.toInt
  | .int64 value, some sent => sent = intText value.toInt
  | .double value, some sent => readDouble sent = value
  | .bool value, some sent => sent = if value then ['t'] else ['f']
  | .null, none => True
  | _, _ => False

/-- The database is sent the query, and the values of the parameters under `P`. -/
def Execution.Sends {V : Type} (P : Value F → V → Prop) (e : Execution (Value F))
    (e' : Execution V) : Prop :=
  e'.query = e.query ∧ List.Forall₂ P e.params e'.params

/-- Each backend sends the executions that the calls mean. -/
structure Agree [Zero F] (doubleText : F → List Char) (readDouble : List Char → F)
    (calls : List (StatementCall F)) : Prop where
  odbc : List.Forall₂ (Execution.Sends fun v w => w = v.odbc)
    (outputs Statement.step {} calls) (outputs ODBCStatement.step {} calls)
  sqlite : List.Forall₂ (Execution.Sends fun v w => w = v.sqlite)
    (outputs Statement.step {} calls) (outputs SQLiteStatement.step {} calls)
  postgres : List.Forall₂ (Execution.Sends (Value.Pg readDouble))
    (outputs Statement.step {} calls) (outputs (PostgreSQLStatement.step doubleText) {} calls)

/-- A text that no C string cuts off. -/
def Value.Whole : Value F → Prop
  | .text value => NoNul value
  | _ => True

/-- A value that its text gives back. -/
def Value.Readable (doubleText : F → List Char) (readDouble : List Char → F) : Value F → Prop
  | .text value => NoNul value
  | .double value => readDouble (cStr (doubleText value)) = value
  | _ => True

/-- The statement is ready to be executed: there is a query, which has not been executed since
it was set or the bindings were cleared, what is bound was bound after the query was set, and
all of it goes through a text. -/
structure Statement.Ready (doubleText : F → List Char) (readDouble : List Char → F)
    (s : Statement F) : Prop where
  fresh : s.executed = false
  query_ne : s.query ≠ []
  query_noNul : NoNul s.query
  rebound : s.recent = s.params
  readable : ∀ v ∈ s.params, v.Readable doubleText readDouble

/-- The statement is ready whenever it is executed. -/
def Proper (doubleText : F → List Char) (readDouble : List Char → F) (s : Statement F)
    (call : StatementCall F) : Prop :=
  call.executes = true → s.Ready doubleText readDouble

/-! ## Lists of parameters -/

theorem cStr_eq_self_iff (text : List Char) : cStr text = text ↔ NoNul text := by
  rw [cStr, List.takeWhile_eq_self_iff, NoNul]
  constructor
  · intro h hmem
    simpa using h _ hmem
  · intro h c hc
    simpa using fun heq : c = Char.ofNat 0 => h (heq ▸ hc)

theorem noNul_intText (i : Int) : NoNul (intText i) := by
  have hdigits : NoNul (CppText.decimal i.natAbs) := CppText.notMem_decimal (by decide) _
  unfold intText
  split
  · rw [NoNul, List.mem_cons, not_or]
    exact ⟨by decide, hdigits⟩
  · exact hdigits

theorem forall₂_replicate {α β : Type} {R : α → β → Prop} {a : α} {b : β} (h : R a b) (n : ℕ) :
    List.Forall₂ R (List.replicate n a) (List.replicate n b) := by
  induction n with
  | zero => exact .nil
  | succ n ih => exact .cons h ih

theorem forall₂_modify {α β : Type} {R : α → β → Prop} {f : α → α} {g : β → β}
    (h : ∀ a b, R a b → R (f a) (g b)) {as : List α} {bs : List β} (hall : List.Forall₂ R as bs)
    (n : ℕ) : List.Forall₂ R (as.modify n f) (bs.modify n g) := by
  induction hall generalizing n with
  | nil => simp
  | cons hab htail ih =>
      cases n with
      | zero => exact .cons (h _ _ hab) htail
      | succ n => exact .cons hab (ih n)

/-- Binding keeps a correspondence of the parameters. -/
theorem forall₂_put {α β : Type} {R : α → β → Prop} {d : α} {d' : β} {f : α → α} {g : β → β}
    (hd : R d d') (h : ∀ a b, R a b → R (f a) (g b)) {as : List α} {bs : List β}
    (hall : List.Forall₂ R as bs) (index : ℕ+) :
    List.Forall₂ R (put d as index f) (put d' bs index g) := by
  have hlen := hall.length_eq
  unfold put
  rw [hlen]
  exact forall₂_modify h (List.rel_append hall (forall₂_replicate hd _)) _

/-- If the slots hold the values up to `R`, what is sent corresponds to the values exactly when
`Q` holds of every value. -/
theorem forall₂_map_iff {α β γ : Type} {R : α → β → Prop} {P : α → γ → Prop} {Q : α → Prop}
    {g : β → γ} (h : ∀ a b, R a b → (P a (g b) ↔ Q a)) {as : List α} {bs : List β}
    (hall : List.Forall₂ R as bs) : List.Forall₂ P as (bs.map g) ↔ ∀ a ∈ as, Q a := by
  induction hall with
  | nil => simp
  | cons hab htail ih =>
      rw [List.map_cons, List.forall₂_cons, List.forall_mem_cons, h _ _ hab, ih]

theorem Execution.forall₂_sends_iff {V : Type} {P : Value F → V → Prop}
    {e : Execution (Value F)} {e' : Execution V} :
    List.Forall₂ (Execution.Sends P) [e] [e'] ↔
      e'.query = e.query ∧ List.Forall₂ P e.params e'.params := by
  simp [Execution.Sends]

/-! ## ODBC sends a query once -/

variable [Zero F]

/-- The slot holds the value. -/
def ParamValue.Holds (v : Value F) (p : ParamValue F) : Prop :=
  match v with
  | .text value => p.type = .text ∧ p.text = value
  | .int value => p.type = .int ∧ p.intVal = value
  | .int64 value => p.type = .int64 ∧ p.int64Val = value
  | .double value => p.type = .double ∧ p.doubleVal = value
  | .bool value => p.type = .bool ∧ p.intVal = if value then 1 else 0
  | .null => p.type = .null

theorem ParamValue.holds_default : Holds .null ({} : ParamValue F) := rfl

theorem ParamValue.holds_assign (v : Value F) (p : ParamValue F) : Holds v (p.assign v) := by
  cases v <;> simp [Holds, assign]

theorem ParamValue.Holds.ready {v : Value F} {p : ParamValue F} (h : Holds v p) :
    Holds v p.ready := by
  cases v <;> simp_all [Holds, ParamValue.ready]

/-- What the driver reads from the slot is the value, unless a text is cut off. -/
theorem ParamValue.Holds.read_iff {v : Value F} {p : ParamValue F} (h : Holds v p) :
    p.ready.read = v.odbc ↔ v.Whole := by
  cases v with
  | text value =>
      obtain ⟨htype, htext⟩ := h
      simp [ParamValue.ready, ParamValue.read, Value.odbc, Value.Whole, htype, htext,
        cStr_eq_self_iff, SQL_NTS, SQL_NULL_DATA]
  | bool value =>
      obtain ⟨htype, hval⟩ := h
      cases value <;>
        simp [ParamValue.ready, ParamValue.read, Value.odbc, Value.Whole, htype, hval,
          SQL_NULL_DATA] <;> rfl
  | null =>
      simp [ParamValue.ready, ParamValue.read, Value.odbc, Value.Whole,
        show p.type = .null from h]
  | int value | int64 value | double value =>
      obtain ⟨htype, hval⟩ := h
      simp [ParamValue.ready, ParamValue.read, Value.odbc, Value.Whole, htype, hval,
        SQL_NULL_DATA]

/-- The object is in the state that the calls so far amount to. -/
structure ODBCStatement.Holds (s : Statement F) (t : ODBCStatement F) : Prop where
  query : t.mQuery = s.query
  params : List.Forall₂ ParamValue.Holds s.params t.mParams
  prepared : t.mPrepared = s.executed

theorem ODBCStatement.Holds.send {s : Statement F} {t : ODBCStatement F} (h : Holds s t) :
    Holds { s with executed := true } t.send.1 := by
  unfold ODBCStatement.send
  split
  · next hprep => exact ⟨h.query, h.params, hprep⟩
  · refine ⟨h.query, ?_, rfl⟩
    exact List.forall₂_map_right_iff.mpr (h.params.imp fun _ _ hp => hp.ready)

theorem ODBCStatement.Holds.step {s : Statement F} {t : ODBCStatement F} (h : Holds s t)
    (call : StatementCall F) : Holds (s.step call).1 (t.step call).1 := by
  cases call with
  | setQuery query => exact ⟨rfl, h.params, rfl⟩
  | bindParameter index value =>
      refine ⟨h.query, ?_, h.prepared⟩
      refine forall₂_put (R := ParamValue.Holds) ParamValue.holds_default ?_ h.params index
      exact fun _ p _ => ParamValue.holds_assign value p
  | clearParameters => exact ⟨h.query, .nil, rfl⟩
  | execute => exact h.send
  | executeUpdate => exact h.send

/-- An execution is sent if there was none before, and its parameters are the ones bound if no
text is cut off. -/
theorem ODBCStatement.Holds.send_iff {s : Statement F} {t : ODBCStatement F} (h : Holds s t) :
    List.Forall₂ (Execution.Sends fun v w => w = v.odbc) [⟨s.query, s.params⟩] t.send.2 ↔
      s.executed = false ∧ NoNul s.query ∧ ∀ v ∈ s.params, v.Whole := by
  unfold ODBCStatement.send
  split
  · next hprep => simp [← h.prepared, hprep]
  · next hprep =>
      have hparams : List.Forall₂ (fun v w => w = v.odbc) s.params
          ((t.mParams.map ParamValue.ready).map ParamValue.read) ↔ ∀ v ∈ s.params, v.Whole := by
        rw [List.map_map]
        exact forall₂_map_iff (fun v p hp => hp.read_iff) h.params
      rw [Execution.forall₂_sends_iff, hparams, h.query, cStr_eq_self_iff, ← h.prepared]
      exact (and_iff_right (Bool.eq_false_of_not_eq_true hprep)).symm

theorem ODBCStatement.Holds.outputs_iff {s : Statement F} {t : ODBCStatement F} (h : Holds s t)
    (call : StatementCall F) :
    List.Forall₂ (Execution.Sends fun v w => w = v.odbc) (s.step call).2 (t.step call).2 ↔
      (call.executes = true → s.executed = false ∧ NoNul s.query ∧ ∀ v ∈ s.params, v.Whole) := by
  cases call with
  | setQuery query | bindParameter index value | clearParameters =>
      simp [Statement.step, ODBCStatement.step, StatementCall.executes]
  | execute => exact ⟨fun hs _ => h.send_iff.mp hs, fun hs => h.send_iff.mpr (hs rfl)⟩
  | executeUpdate => exact ⟨fun hs _ => h.send_iff.mp hs, fun hs => h.send_iff.mpr (hs rfl)⟩

theorem ODBCStatement.length_step_le (s : Statement F) (t : ODBCStatement F)
    (call : StatementCall F) : (t.step call).2.length ≤ (s.step call).2.length := by
  have hsend : t.send.2.length ≤ 1 := by
    unfold ODBCStatement.send
    split <;> simp
  cases call with
  | setQuery query | bindParameter index value | clearParameters => exact le_refl _
  | execute => exact hsend
  | executeUpdate => exact hsend

/-! ## SQLite runs a query each time -/

/-- The slot holds the value. -/
def SQLiteParam.Holds (v : Value F) (p : SQLiteParam F) : Prop :=
  match v with
  | .text value => p.type = .text ∧ p.text = value
  | .int value => p.type = .int ∧ p.int64Val = value.toInt64
  | .int64 value => p.type = .int64 ∧ p.int64Val = value
  | .double value => p.type = .real ∧ p.realVal = value
  | .bool value => p.type = .int ∧ p.int64Val = if value then 1 else 0
  | .null => p.type = .null

theorem SQLiteParam.holds_default : Holds .null ({} : SQLiteParam F) := rfl

theorem SQLiteParam.holds_assign (v : Value F) (p : SQLiteParam F) : Holds v (p.assign v) := by
  cases v with
  | bool value => cases value <;> exact ⟨rfl, rfl⟩
  | text value | int value | int64 value | double value => exact ⟨rfl, rfl⟩
  | null => exact rfl

theorem SQLiteParam.Holds.bound_iff {v : Value F} {p : SQLiteParam F} (h : Holds v p) :
    p.bound = v.sqlite ↔ v.Whole := by
  cases v with
  | text value =>
      obtain ⟨htype, htext⟩ := h
      simp [SQLiteParam.bound, Value.sqlite, Value.Whole, htype, htext, cStr_eq_self_iff]
  | null => simp [SQLiteParam.bound, Value.sqlite, Value.Whole, show p.type = .null from h]
  | int value | int64 value | double value | bool value =>
      obtain ⟨htype, hval⟩ := h
      simp [SQLiteParam.bound, Value.sqlite, Value.Whole, htype, hval]

/-- The object is in the state that the calls so far amount to. -/
structure SQLiteStatement.Holds (s : Statement F) (t : SQLiteStatement F) : Prop where
  query : t.mQuery = s.query
  params : List.Forall₂ SQLiteParam.Holds s.params t.mCurrentParams

theorem SQLiteStatement.Holds.step {s : Statement F} {t : SQLiteStatement F} (h : Holds s t)
    (call : StatementCall F) : Holds (s.step call).1 (t.step call).1 := by
  cases call with
  | setQuery query => exact ⟨rfl, h.params⟩
  | bindParameter index value =>
      refine ⟨h.query, ?_⟩
      refine forall₂_put (R := SQLiteParam.Holds) SQLiteParam.holds_default ?_ h.params index
      exact fun _ p _ => SQLiteParam.holds_assign value p
  | clearParameters => exact ⟨h.query, .nil⟩
  | execute => exact ⟨h.query, h.params⟩
  | executeUpdate => exact ⟨h.query, h.params⟩

theorem SQLiteStatement.Holds.outputs_iff {s : Statement F} {t : SQLiteStatement F} (h : Holds s t)
    (call : StatementCall F) :
    List.Forall₂ (Execution.Sends fun v w => w = v.sqlite) (s.step call).2 (t.step call).2 ↔
      (call.executes = true → NoNul s.query ∧ ∀ v ∈ s.params, v.Whole) := by
  have hsend : List.Forall₂ (Execution.Sends fun v w => w = v.sqlite) [⟨s.query, s.params⟩]
      t.send.2 ↔ NoNul s.query ∧ ∀ v ∈ s.params, v.Whole := by
    have hparams : List.Forall₂ (fun v w => w = v.sqlite) s.params
        (t.mCurrentParams.map SQLiteParam.bound) ↔ ∀ v ∈ s.params, v.Whole :=
      forall₂_map_iff (fun v p hp => hp.bound_iff) h.params
    unfold SQLiteStatement.send
    rw [Execution.forall₂_sends_iff, hparams, h.query, cStr_eq_self_iff]
  cases call with
  | setQuery query | bindParameter index value | clearParameters =>
      simp [Statement.step, SQLiteStatement.step, StatementCall.executes]
  | execute => exact ⟨fun hs _ => hsend.mp hs, fun hs => hsend.mpr (hs rfl)⟩
  | executeUpdate => exact ⟨fun hs _ => hsend.mp hs, fun hs => hsend.mpr (hs rfl)⟩

theorem SQLiteStatement.length_step_le (s : Statement F) (t : SQLiteStatement F)
    (call : StatementCall F) : (t.step call).2.length ≤ (s.step call).2.length := by
  cases call <;> exact le_refl _

end

/-! ## PostgreSQL forgets what was bound -/

section
variable {F : Type}

/-- A slot that was bound before the query was set is unbound, and there may be fewer of
them. -/
def Forgets (recent params : List (Value F)) : Prop :=
  recent.length ≤ params.length ∧
    ∀ (i : ℕ) (v : Value F), recent[i]? = some v → v = .null ∨ params[i]? = some v

theorem length_put {α : Type} (d : α) (l : List α) (index : ℕ+) (f : α → α) :
    (put d l index f).length = max l.length index := by
  simp only [put, List.length_modify, List.length_append, List.length_replicate]
  omega

theorem getElem?_put_self {α : Type} (d : α) (l : List α) (index : ℕ+) (v : α) :
    (put d l index fun _ => v)[index.natPred]? = some v := by
  have hlt : index.natPred < (l ++ List.replicate (index - l.length) d).length := by
    have := index.natPred_add_one
    simp only [List.length_append, List.length_replicate]
    omega
  simp [put, List.getElem?_eq_getElem hlt]

theorem getElem?_put_of_ne {α : Type} (d : α) (l : List α) {index : ℕ+} {i : ℕ}
    (h : index.natPred ≠ i) (f : α → α) :
    (put d l index f)[i]? = (l ++ List.replicate (index - l.length) d)[i]? := by
  simp [put, h]

theorem Forgets.bound {recent params : List (Value F)} (h : Forgets recent params) (index : ℕ+)
    (value : Value F) :
    Forgets (put .null recent index fun _ => value) (put .null params index fun _ => value) := by
  obtain ⟨hlen, hmem⟩ := h
  refine ⟨by rw [length_put, length_put]; exact max_le_max_right _ hlen, fun i v hv => ?_⟩
  by_cases hi : index.natPred = i
  · subst hi
    rw [getElem?_put_self] at hv ⊢
    exact .inr hv
  · rw [getElem?_put_of_ne _ _ hi] at hv ⊢
    rcases lt_or_ge i recent.length with hlt | hge
    · rw [List.getElem?_append_left hlt] at hv
      rw [List.getElem?_append_left (hlt.trans_le hlen)]
      exact hmem i v hv
    · rw [List.getElem?_append_right hge] at hv
      exact .inl (List.eq_of_mem_replicate (List.mem_of_getElem? hv))

/-- The slot holds the value as a text. -/
def PgParam.Holds (doubleText : F → List Char) (v : Value F) (p : PgParam) : Prop :=
  p = PgParam.assign doubleText v {}

theorem PgParam.holds_assign (doubleText : F → List Char) (v : Value F) (p : PgParam) :
    Holds doubleText v (p.assign doubleText v) := by
  cases v <;> rfl

/-- What PostgreSQL gets is the value that was bound, unless a text is cut off or does not give
back the number. -/
theorem PgParam.Holds.pointer_iff {doubleText : F → List Char} {readDouble : List Char → F}
    {v : Value F} {p : PgParam} (h : Holds doubleText v p) :
    v.Pg readDouble p.pointer ↔ v.Readable doubleText readDouble := by
  subst h
  cases v with
  | text value => exact cStr_eq_self_iff value
  | double value => exact Iff.rfl
  | int value => exact iff_true_intro ((cStr_eq_self_iff _).mpr (noNul_intText _))
  | int64 value => exact iff_true_intro ((cStr_eq_self_iff _).mpr (noNul_intText _))
  | bool value => cases value <;> exact iff_true_intro rfl
  | null => exact Iff.rfl

/-- What an unbound slot sends is the null value only. -/
theorem PgParam.Holds.eq_null {doubleText : F → List Char} {readDouble : List Char → F}
    {v : Value F} {p : PgParam} (h : Holds doubleText .null p) (hv : v.Pg readDouble p.pointer) :
    v = .null := by
  subst h
  cases v with
  | null => rfl
  | text value | int value | int64 value | double value | bool value => exact hv.elim

/-- The object is in the state that the calls so far amount to. -/
structure PostgreSQLStatement.Holds (doubleText : F → List Char) (s : Statement F)
    (t : PostgreSQLStatement) : Prop where
  query : t.mQuery = s.query
  params : List.Forall₂ (PgParam.Holds doubleText) s.recent t.mCurrentParams
  forgets : Forgets s.recent s.params

variable {doubleText : F → List Char} {readDouble : List Char → F} {s : Statement F}
  {t : PostgreSQLStatement}

theorem PostgreSQLStatement.Holds.send (h : Holds doubleText s t) :
    Holds doubleText { s with executed := true } t.send.1 := by
  unfold PostgreSQLStatement.send
  split <;> exact ⟨h.query, h.params, h.forgets⟩

theorem PostgreSQLStatement.Holds.step (h : Holds doubleText s t) (call : StatementCall F) :
    Holds doubleText (s.step call).1 (t.step doubleText call).1 := by
  cases call with
  | setQuery query =>
      exact ⟨rfl, .nil, Nat.zero_le _, fun i v hv => by simp [Statement.step] at hv⟩
  | bindParameter index value =>
      refine ⟨h.query, ?_, h.forgets.bound index value⟩
      refine forall₂_put (R := PgParam.Holds doubleText) rfl ?_ h.params index
      exact fun _ p _ => PgParam.holds_assign doubleText value p
  | clearParameters =>
      exact ⟨h.query, .nil, le_refl _, fun i v hv => by simp [Statement.step] at hv⟩
  | execute => exact h.send
  | executeUpdate => exact h.send

/-- The parameters that are sent are the ones bound exactly if all of them were bound after the
query was set and are readable. -/
theorem PostgreSQLStatement.Holds.params_iff (h : Holds doubleText s t) :
    List.Forall₂ (Value.Pg readDouble) s.params (t.mCurrentParams.map PgParam.pointer) ↔
      s.recent = s.params ∧ ∀ v ∈ s.params, v.Readable doubleText readDouble := by
  have hreadable : List.Forall₂ (Value.Pg readDouble) s.recent
      (t.mCurrentParams.map PgParam.pointer) ↔ ∀ v ∈ s.recent, v.Readable doubleText readDouble :=
    forall₂_map_iff (fun v p hp => hp.pointer_iff) h.params
  constructor
  · intro hall
    rw [List.forall₂_map_right_iff] at hall
    have hlen : s.recent.length = s.params.length :=
      h.params.length_eq.trans hall.length_eq.symm
    have heq : s.recent = s.params := by
      refine List.ext_getElem hlen fun i hi hi' => ?_
      have hp : i < t.mCurrentParams.length := h.params.length_eq ▸ hi
      have hheld := h.params.get hi hp
      have hsent := hall.get hi' hp
      cases h.forgets.2 i _ (List.getElem?_eq_getElem hi) with
      | inl hnull =>
          rw [List.get_eq_getElem, List.get_eq_getElem, hnull] at hheld
          rw [hnull]
          exact (hheld.eq_null hsent).symm
      | inr hsame => exact (Option.some.inj ((List.getElem?_eq_getElem hi').symm.trans hsame)).symm
    refine ⟨heq, ?_⟩
    rw [heq, List.forall₂_map_right_iff] at hreadable
    exact hreadable.mp hall
  · rintro ⟨heq, hall⟩
    rw [heq] at hreadable
    exact hreadable.mpr hall

theorem PostgreSQLStatement.Holds.send_iff (h : Holds doubleText s t) :
    List.Forall₂ (Execution.Sends (Value.Pg readDouble)) [⟨s.query, s.params⟩] t.send.2 ↔
      s.query ≠ [] ∧ NoNul s.query ∧ s.recent = s.params ∧
        ∀ v ∈ s.params, v.Readable doubleText readDouble := by
  unfold PostgreSQLStatement.send PostgreSQLStatement.ensureQuery
  by_cases hquery : t.mQuery = []
  · simp [← h.query, hquery]
  · rw [if_neg hquery, ← h.query, Execution.forall₂_sends_iff, h.params_iff, cStr_eq_self_iff]
    exact (and_iff_right hquery).symm

theorem PostgreSQLStatement.Holds.outputs_iff (h : Holds doubleText s t)
    (call : StatementCall F) :
    List.Forall₂ (Execution.Sends (Value.Pg readDouble)) (s.step call).2
        (t.step doubleText call).2 ↔
      (call.executes = true → s.query ≠ [] ∧ NoNul s.query ∧ s.recent = s.params ∧
        ∀ v ∈ s.params, v.Readable doubleText readDouble) := by
  cases call with
  | setQuery query | bindParameter index value | clearParameters =>
      simp [Statement.step, PostgreSQLStatement.step, StatementCall.executes]
  | execute => exact ⟨fun hs _ => h.send_iff.mp hs, fun hs => h.send_iff.mpr (hs rfl)⟩
  | executeUpdate => exact ⟨fun hs _ => h.send_iff.mp hs, fun hs => h.send_iff.mpr (hs rfl)⟩

theorem PostgreSQLStatement.length_step_le (s : Statement F) (t : PostgreSQLStatement)
    (call : StatementCall F) : (t.step doubleText call).2.length ≤ (s.step call).2.length := by
  have hsend : t.send.2.length ≤ 1 := by
    unfold PostgreSQLStatement.send
    split <;> simp
  cases call with
  | setQuery query | bindParameter index value | clearParameters => exact le_refl _
  | execute => exact hsend
  | executeUpdate => exact hsend

/-! ## The three together -/

theorem Value.Readable.whole {v : Value F} (h : v.Readable doubleText readDouble) : v.Whole := by
  cases v with
  | text value => exact h
  | int value | int64 value | double value | bool value | null => exact trivial

/-- The statement is ready for all three when it is ready for each of them. -/
theorem proper_iff (s : Statement F) (call : StatementCall F) :
    Proper doubleText readDouble s call ↔
      (call.executes = true → s.executed = false ∧ NoNul s.query ∧ ∀ v ∈ s.params, v.Whole) ∧
      (call.executes = true → NoNul s.query ∧ ∀ v ∈ s.params, v.Whole) ∧
      (call.executes = true → s.query ≠ [] ∧ NoNul s.query ∧ s.recent = s.params ∧
        ∀ v ∈ s.params, v.Readable doubleText readDouble) := by
  constructor
  · intro h
    refine ⟨fun he => ?_, fun he => ?_, fun he => ?_⟩
    · exact ⟨(h he).fresh, (h he).query_noNul, fun v hv => ((h he).readable v hv).whole⟩
    · exact ⟨(h he).query_noNul, fun v hv => ((h he).readable v hv).whole⟩
    · exact ⟨(h he).query_ne, (h he).query_noNul, (h he).rebound, (h he).readable⟩
  · rintro ⟨hodbc, -, hpostgres⟩ he
    obtain ⟨hquery, hnul, hrebound, hreadable⟩ := hpostgres he
    exact ⟨(hodbc he).1, hquery, hnul, hrebound, hreadable⟩

/-- The three backends agree with the meaning of the calls exactly when the statement is ready
whenever it is executed. -/
theorem agree_iff_proper [Zero F] (doubleText : F → List Char) (readDouble : List Char → F)
    (calls : List (StatementCall F)) :
    Agree doubleText readDouble calls ↔
      Steps Statement.step (Proper doubleText readDouble) {} calls := by
  have hodbc := Transducer.forall₂_outputs_iff (R := ODBCStatement.Holds) (s := {}) (t := {})
    (fun _ _ call h => h.step call) (fun s t call _ => ODBCStatement.length_step_le s t call)
    (fun _ _ call h => h.outputs_iff call) ⟨rfl, .nil, rfl⟩ calls
  have hsqlite := Transducer.forall₂_outputs_iff (R := SQLiteStatement.Holds) (s := {}) (t := {})
    (fun _ _ call h => h.step call) (fun s t call _ => SQLiteStatement.length_step_le s t call)
    (fun _ _ call h => h.outputs_iff call) ⟨rfl, .nil⟩ calls
  have hpostgres := Transducer.forall₂_outputs_iff (R := PostgreSQLStatement.Holds doubleText)
    (s := {}) (t := {}) (fun _ _ call h => h.step call)
    (fun s t call _ => PostgreSQLStatement.length_step_le s t call)
    (P := Execution.Sends (Value.Pg readDouble)) (fun _ _ call h => h.outputs_iff call)
    ⟨rfl, .nil, le_refl _, fun i v hv => by simp at hv⟩ calls
  have hagree : Agree doubleText readDouble calls ↔ _ ∧ _ ∧ _ :=
    ⟨fun h => ⟨hodbc.mp h.odbc, hsqlite.mp h.sqlite, hpostgres.mp h.postgres⟩,
      fun h => ⟨hodbc.mpr h.1, hsqlite.mpr h.2.1, hpostgres.mpr h.2.2⟩⟩
  rw [hagree, ← Transducer.steps_and, ← Transducer.steps_and]
  exact Transducer.steps_congr (fun s call => (proper_iff s call).symm) _ calls

/-- The query is executed a second time with another parameter.  ODBC sends it once. -/
theorem not_agree_rebind :
    ¬ Agree (F := ℤ) (fun _ => []) (fun _ => 0)
      [.setQuery ['q'], .bindParameter 1 (.int 1), .execute, .bindParameter 1 (.int 2),
        .execute] := by
  intro h
  have hlen := h.odbc.length_eq
  exact absurd hlen (by decide)

end

end NetworkModule.Database.Statements
