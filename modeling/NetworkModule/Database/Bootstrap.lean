import NetworkModule.Lib.Machine

/-!
# Bootstrapping the tables of a module

Every server calls `SqlModuleBootstrap::BootstrapModuleIfNeeded`
(`ServerEngine/Database/SqlModuleBootstrap.h`) for its module when it starts.  The first
call creates the tables by executing the table scripts, and the calls after it should see
that this is done.  They agree by a row of the table `T_ModuleBootstrapState`, whose
primary key is the name of the module.

Every statement is atomic: it succeeds with its effect, or it fails with an exception and
has none.  The message of the exception is whatever the database says, and the code
decides by the words in it how to go on.  Any statement may fail, and a server may crash
between two statements.

The database is not the mock one.  The two time stamps of a row are left out, nothing
reads them.
-/

namespace NetworkModule.Database.Bootstrap

/-! ## The specification of a module -/

/-- `ModuleSpec`. -/
structure ModuleSpec where
  moduleName : String
  tableScripts : List String
  managedScripts : List String
  deriving DecidableEq, Repr

/-- What a call depends on besides the database. -/
structure Call where
  spec : ModuleSpec
  /-- `database.IsConnected()`. -/
  isConnected : Bool
  /-- `SqlScriptRunner::LoadScript` for a path: the text, or the exception. -/
  loadScript : String → Except String String

/-- `Detail::AppendHash`, one step of FNV-1a for each byte and one for the byte 255. -/
def appendHash (current : UInt64) (value : String) : UInt64 :=
  let kFnvPrime : UInt64 := 1099511628211
  let body := value.toUTF8.data.toList.foldl
    (fun hash (c : UInt8) => (hash ^^^ c.toUInt64) * kFnvPrime) current
  (body ^^^ 0xff) * kFnvPrime

/-- `Detail::ToHexString`. -/
def toHexString (value : UInt64) : String :=
  String.ofList (List.leftpad 16 '0' (Nat.toDigits 16 value.toNat))

/-- The loop over the scripts in `Detail::ComputeManifestHash`. -/
def hashScripts (loadScript : String → Except String String) :
    UInt64 → List String → Except String UInt64
  | hash, [] => .ok hash
  | hash, scriptPath :: rest =>
      match loadScript scriptPath with
      | .error what => .error what
      | .ok text => hashScripts loadScript (appendHash (appendHash hash scriptPath) text) rest

/-- `Detail::ComputeManifestHash`. -/
def computeManifestHash (c : Call) : Except String String :=
  match hashScripts c.loadScript (appendHash 1469598103934665603 c.spec.moduleName)
      c.spec.managedScripts with
  | .error what => .error what
  | .ok hash => .ok (toHexString hash)

/-- `Detail::ValidateModuleSpec`: the text of the exception. -/
def validateModuleSpec (spec : ModuleSpec) : Option String :=
  if spec.moduleName = "" then some "SQL module bootstrap requires a module name"
  else if spec.tableScripts = [] then
    some ("SQL module bootstrap requires at least one table script: " ++ spec.moduleName)
  else if spec.managedScripts = [] then
    some ("SQL module bootstrap requires managed scripts: " ++ spec.moduleName)
  else none

/-! ## Messages of the database -/

/-- Whether a message contains one of the texts, in whatever case it is written. -/
def mentions (texts : List String) (what : String) : Bool :=
  texts.any fun text => decide (text.toList <:+: what.toList.map Char.toLower)

/-- `Detail::IsMissingTableError`. -/
def isMissingTableError : String → Bool :=
  mentions ["no such table", "doesn't exist", "does not exist", "unknown table",
    "invalid object name", "base table or view not found", "table not found"]

/-- `Detail::IsDuplicateKeyError`. -/
def isDuplicateKeyError : String → Bool := mentions ["duplicate", "unique constraint failed"]

/-- `Detail::IsTableAlreadyExistsError`. -/
def isTableAlreadyExistsError : String → Bool :=
  mentions ["already exists", "already an object named",
    "table 't_modulebootstrapstate' already exists",
    "relation \"t_modulebootstrapstate\" already exists"]

/-! ## Calls -/

/-- The column `status`. -/
inductive Status where
  | inProgress
  | completed
  | failed
  deriving DecidableEq, Repr

/-- `kBootstrapStatusInProgress`, `kBootstrapStatusCompleted` and `kBootstrapStatusFailed`. -/
def Status.text : Status → String
  | .inProgress => "IN_PROGRESS"
  | .completed => "COMPLETED"
  | .failed => "FAILED"

/-- A row of `T_ModuleBootstrapState`. -/
structure Row where
  manifestHash : String
  status : Status
  deriving DecidableEq, Repr

/-- Where a call of `BootstrapModuleIfNeeded` stands. -/
inductive Pc where
  /-- Before the first statement. -/
  | begin
  /-- The first `TryReadBootstrapState`. -/
  | read
  /-- `EnsureBootstrapStateTable`. -/
  | create
  /-- `TryReadBootstrapState` after it. -/
  | reread
  /-- `InsertBootstrapState`. -/
  | insert
  /-- `TryReadBootstrapState` after the insertion failed with this message. -/
  | racedRead (what : String)
  /-- The table script `k`, or the update to `COMPLETED` after the last one. -/
  | script (k : Nat)
  /-- The update to `FAILED`, after this exception. -/
  | fail (what : String)
  | returned (ok : Bool)
  | threw (what : String)
  | crashed
  deriving DecidableEq, Repr

/-- The variables of a call. -/
structure Local where
  pc : Pc := .begin
  manifestHash : String := ""
  deriving DecidableEq, Repr

/-- The database and the calls. -/
structure World where
  /-- Whether `T_ModuleBootstrapState` exists. -/
  table : Bool
  rows : String → Option Row := fun _ => none
  locals : Nat → Local := fun _ => {}
  /-- The call that inserted the row of a module. -/
  owner : String → Option Nat := fun _ => none
  /-- The table scripts that calls have sent to the database. -/
  ran : List (Nat × String) := []
  /-- Those of them that succeeded. -/
  done : List (Nat × String) := []

/-- The call `i` moves to `pc`. -/
def World.goto (w : World) (i : Nat) (pc : Pc) : World :=
  { w with locals := Function.update w.locals i { w.locals i with pc := pc } }

/-- The table scripts of call `i` that have been executed. -/
def World.doneBy (w : World) (i : Nat) : List String :=
  (w.done.filter fun e => e.1 = i).map (·.2)

/-- How the database answers a statement. -/
inductive Answer where
  | ok
  | failed (what : String)
  deriving DecidableEq, Repr

/-- What `TryReadBootstrapState` gives. -/
inductive Read where
  | threw (what : String)
  | missingTable
  /-- The row, if there is one. -/
  | state (row : Option Row)
  deriving DecidableEq, Repr

/-- `Detail::TryReadBootstrapState`.  The query cannot succeed without the table. -/
def tryReadBootstrapState (w : World) (moduleName : String) : Answer → Option Read
  | .ok => if w.table then some (.state (w.rows moduleName)) else none
  | .failed what => some (if isMissingTableError what then .missingTable else .threw what)

/-- What a call does with the state of its module. -/
def afterRead (c : Call) (w : World) (i : Nat) : Option Row → World
  | none => w.goto i .insert
  | some row =>
      if row.status ≠ .completed then
        w.goto i (.threw ("SQL bootstrap state is not completed for module " ++
          c.spec.moduleName ++ " (status=" ++ row.status.text ++
          "). Automatic patching is disabled after the first bootstrap."))
      else if row.manifestHash ≠ (w.locals i).manifestHash then
        w.goto i (.threw ("SQL manifest changed for module " ++ c.spec.moduleName ++
          ". Automatic patching is disabled after the first bootstrap."))
      else w.goto i (.returned false)

/-- What a call does when somebody else may have inserted the row. -/
def afterRacedRead (c : Call) (w : World) (i : Nat) (what : String) : Option Row → World
  | none => w.goto i (.threw what)
  | some row =>
      if row.status ≠ .completed then
        w.goto i (.threw ("Concurrent SQL bootstrap detected for module " ++ c.spec.moduleName ++
          " but the state is not completed (status=" ++ row.status.text ++ ")."))
      else if row.manifestHash ≠ (w.locals i).manifestHash then
        w.goto i (.threw ("Concurrent SQL bootstrap detected with a different manifest for module " ++
          c.spec.moduleName ++ "."))
      else w.goto i (.returned false)

/-- `Detail::UpdateBootstrapState`. -/
def updateBootstrapState (c : Call) (w : World) (i : Nat) (status : Status) : World :=
  { w with
    rows := Function.update w.rows c.spec.moduleName
      ((w.rows c.spec.moduleName).map fun _ => ⟨(w.locals i).manifestHash, status⟩) }

/-- One statement of the call `i`. -/
def callStep (c : Call) (w : World) (i : Nat) (answer : Answer) : Option World :=
  match (w.locals i).pc with
  | .begin =>
      match validateModuleSpec c.spec with
      | some what => some (w.goto i (.threw what))
      | none =>
          if ¬ c.isConnected then
            some (w.goto i (.threw
              ("Cannot bootstrap SQL module on a disconnected database: " ++ c.spec.moduleName)))
          else
            match computeManifestHash c, answer with
            | .error what, _ => some (w.goto i (.threw what))
            -- Opening the connection fails.
            | .ok _, .failed what => some (w.goto i (.threw what))
            | .ok manifestHash, .ok =>
                some { w with locals := Function.update w.locals i ⟨.read, manifestHash⟩ }
  | .read =>
      (tryReadBootstrapState w c.spec.moduleName answer).map fun r =>
        match r with
        | .threw what => w.goto i (.threw what)
        | .missingTable => w.goto i .create
        | .state row => afterRead c w i row
  | .create =>
      match answer with
      | .ok => if w.table then none else some { w.goto i .reread with table := true }
      | .failed what =>
          some (w.goto i (if isTableAlreadyExistsError what then .reread else .threw what))
  | .reread =>
      (tryReadBootstrapState w c.spec.moduleName answer).map fun r =>
        match r with
        | .threw what => w.goto i (.threw what)
        | .missingTable =>
            w.goto i (.threw
              ("Failed to load bootstrap state table for module: " ++ c.spec.moduleName))
        | .state row => afterRead c w i row
  | .insert =>
      match answer with
      | .ok =>
          -- The primary key: there is no second row of the module.
          if w.table ∧ w.rows c.spec.moduleName = none then
            some { w.goto i (.script 0) with
              rows := Function.update w.rows c.spec.moduleName
                (some ⟨(w.locals i).manifestHash, .inProgress⟩)
              owner := Function.update w.owner c.spec.moduleName (some i) }
          else none
      | .failed what =>
          some (w.goto i (if isDuplicateKeyError what then .racedRead what else .threw what))
  | .racedRead what =>
      (tryReadBootstrapState w c.spec.moduleName answer).map fun r =>
        match r with
        | .threw what' => w.goto i (.threw what')
        | .missingTable => w.goto i (.threw what)
        | .state row => afterRacedRead c w i what row
  | .script k =>
      match c.spec.tableScripts[k]? with
      | some tableScript =>
          match answer with
          | .ok => some { w.goto i (.script (k + 1)) with
              ran := w.ran ++ [(i, tableScript)]
              done := w.done ++ [(i, tableScript)] }
          | .failed what => some { w.goto i (.fail what) with ran := w.ran ++ [(i, tableScript)] }
      | none =>
          match answer with
          | .ok => some (updateBootstrapState c (w.goto i (.returned true)) i .completed)
          | .failed what => some (w.goto i (.fail what))
  | .fail what =>
      match answer with
      | .ok => some (updateBootstrapState c (w.goto i (.threw what)) i .failed)
      | .failed _ => some (w.goto i (.threw what))
  | .returned _ | .threw _ | .crashed => none

/-- The call is over. -/
def Pc.finished : Pc → Bool
  | .returned _ | .threw _ | .crashed => true
  | _ => false

/-- What happens next. -/
inductive Act where
  | statement (i : Nat) (answer : Answer)
  | crash (i : Nat)
  deriving DecidableEq, Repr

/-- One step.  `calls` are the calls that the servers make. -/
def step (calls : Nat → Call) (w : World) : Act → Option World
  | .statement i answer => callStep (calls i) w i answer
  | .crash i => if (w.locals i).pc.finished then none else some (w.goto i .crashed)

end NetworkModule.Database.Bootstrap
