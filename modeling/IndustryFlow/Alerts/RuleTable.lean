import IndustryFlow.Alerts.RuleBodies
import IndustryFlow.Concurrent.Pool
import IndustryFlow.Concurrent.RowLocks

/-!
# The alert rule routes

The transactions that create, edit and delete the alert rules of a tenant,
under READ COMMITTED.  Every statement reads what is committed when it starts.
One that writes a row waits for the locks in its way and then acts on the
latest version of the row, if it is still there.  What a transaction writes is
committed with it.
-/

namespace IndustryFlow.AlertRules

open Concurrent
open JsonText (Text)

/-- An edit that was committed: the changes it was asked for, and its row
before and after.  The code does not read it. -/
structure Edit where
  rule : Nat
  changes : Given
  before : Row
  after : Row

/-- What is committed, the transactions in progress, and the edits there have
been. -/
structure Database where
  rows : Nat → Option Row
  locking : Locking Nat
  edits : List Edit

def Database.start (rows : Nat → Option Row) : Database :=
  ⟨rows, .idle, []⟩

/-- What a transaction has written.  The id of a row that it inserts is the
number of the transaction. -/
inductive Write where
  | nothing
  | insert (row : Row)
  | update (rule : Nat) (changes : Given) (row : Row)
  | delete (rule : Nat)

namespace Database

def set (database : Database) (rule : Nat) (row : Option Row) : Database :=
  { database with rows := Function.update database.rows rule row }

/-- What is committed with the transaction, unless a key is taken. -/
def apply (database : Database) (owner : Nat) : Write → Option Database
  | .nothing => some database
  | .insert row =>
      if (database.rows owner).isSome then none
      else some (database.set owner (some row))
  | .update rule changes row =>
      match database.rows rule with
      | none => none
      | some before => some { database.set rule (some row) with
          edits := database.edits ++ [⟨rule, changes, before, row⟩] }
  | .delete rule => some (database.set rule none)

def finish (database : Database) (owner : Nat) : Database :=
  { database with locking := database.locking.finish owner }

end Database

/-! ## Statements -/

/-- The changes of an edit and the row that they were validated with. -/
structure Checked where
  changes : Given
  read : Row

/-- A lock carries what its edit has checked; the database does not see it. -/
inductive Op where
  | begin
  | select (rule : Nat)
  /-- Whether the rows that a statement starts from have this one. -/
  | scan (rule : Nat)
  | lock (owner rule : Nat) (mode : LockMode) (checked : Option Checked)
  | commit (owner : Nat) (write : Write)
  | rollback (owner : Nat)

abbrev Reply : Op → Type
  | .begin => Nat
  | .select _ => Option Row
  | .scan _ => Bool
  | .lock _ _ _ _ => Except Unit (Option Row)
  | .commit _ _ => Except Unit Unit
  | .rollback _ => Unit

inductive Choice where
  | succeeds
  | raises
deriving DecidableEq

/-- A lock, for a transaction that is still in progress: the row behind it, if
it is still there. -/
def lockRow (database : Database) (lock : RowLock Nat) :
    Option (Except Unit (Option Row) × Database) :=
  if lock.owner ∉ database.locking.active then some (.error (), database)
  else if database.locking.Free lock then
    match database.rows lock.key with
    | none => some (.ok none, database)
    | some row => some (.ok (some row),
        { database with locking := database.locking.take lock })
  else none

def exec (database : Database) :
    (op : Op) → Choice → Option (Reply op × Database)
  | .begin, _ => some (database.locking.next,
      { database with locking := database.locking.begin })
  | .select rule, _ => some (database.rows rule, database)
  | .scan rule, _ => some ((database.rows rule).isSome, database)
  | .lock _ _ _ _, .raises => some (.error (), database)
  | .lock owner rule mode _, .succeeds =>
      lockRow database ⟨owner, rule, mode⟩
  | .commit owner _, .raises => some (.error (), database.finish owner)
  | .commit owner write, .succeeds =>
      if owner ∈ database.locking.active then
        match database.apply owner write with
        | none => some (.error (), database.finish owner)
        | some after => some (.ok (), after.finish owner)
      else some (.error (), database)
  | .rollback owner, _ => some ((), database.finish owner)

/-- The connection of a transaction ends. -/
inductive Change where
  | disconnect (owner : Nat)
deriving DecidableEq

def change (database : Database) : Change → Option Database
  | .disconnect owner => some (database.finish owner)

/-! ## The routes -/

inductive Refusal where
  /-- 422 with `errors()`. -/
  | invalid (errors : List Invalid)
  /-- 404 "Alert rule not found". -/
  | notFound
  /-- 400 "No fields to update". -/
  | noFields
  /-- 500: an exception of the database, or of a row that is gone. -/
  | internal
deriving DecidableEq

def Refusal.status : Refusal → Nat
  | .invalid _ => 422
  | .notFound => 404
  | .noFields => 400
  | .internal => 500

structure Libraries where
  pydantic : Pydantic
  /-- What the database driver makes of a stored configuration. -/
  readConfig : ModelConfig → ModelConfig

abbrev Handler := Program Op Reply Refusal

variable (libraries : Libraries)

def abandon {Answer : Type} (owner : Nat) (refusal : Refusal) :
    Handler Answer := do
  Program.perform (Op.rollback owner)
  .fail refusal

/-- `db.commit`. -/
def close (owner : Nat) (write : Write) : Handler Unit := do
  let ended ← Program.perform (Op.commit owner write)
  match ended with
  | .error _ => .fail .internal
  | .ok _ => pure ()

/-- A statement that writes the row: its latest version. -/
def lockRule (owner rule : Nat) (mode : LockMode)
    (checked : Option Checked) : Handler (Option Row) := do
  let visible ← Program.perform (Op.scan rule)
  if visible then do
    let locked ← Program.perform (Op.lock owner rule mode checked)
    match locked with
    | .error _ => abandon owner .internal
    | .ok row => pure row
  else pure none

/-- `_validated_merge`, which gives the row it has read. -/
def validatedMerge (owner rule : Nat) (changes : Given) : Handler Row := do
  let row ← Program.perform (Op.select rule)
  match row with
  | none => abandon owner .notFound
  | some row =>
      match validate libraries.pydantic
          (merge (stored libraries.readConfig row) changes) with
      | .error errors => abandon owner (.invalid errors)
      | .ok _ => pure row

/-- The name has a unique index, which makes it a key. -/
def updateMode (changes : Given) : LockMode :=
  if (changes .name).isSome then .update else .noKeyUpdate

/-- The second half of `_apply`: the row of `RETURNING`, if there is one. -/
def returning (owner rule : Nat) (changes : Given) :
    Option Row → Handler Row
  | none => do
      close owner .nothing
      -- `row._mapping` of no row
      .fail .internal
  | some latest => do
      close owner (.update rule changes (changes.apply latest))
      pure (changes.apply latest)

/-- `_apply`. -/
def applyChanges (owner rule : Nat) (changes : Given) (read : Row) :
    Handler Row := do
  let latest ← lockRule owner rule (updateMode changes) (some ⟨changes, read⟩)
  returning owner rule changes latest

/-- `create_alert_rule`. -/
def createAlertRule (body : Given) : Handler Row :=
  match validate libraries.pydantic body with
  | .error errors => .fail (.invalid errors)
  | .ok rule => do
      let owner ← Program.perform Op.begin
      close owner (.insert (columns libraries.pydantic rule))
      pure (columns libraries.pydantic rule)

/-- `update_alert_rule`. -/
def updateAlertRule (rule : Nat) (body : Given) : Handler Row :=
  match validateUpdate libraries.pydantic body with
  | .error errors => .fail (.invalid errors)
  | .ok update => do
      let owner ← Program.perform Op.begin
      let changes := updateChanges libraries.pydantic update
      if changes.isEmpty then abandon owner .noFields
      else do
        let read ← validatedMerge libraries owner rule changes
        applyChanges owner rule changes read

/-- `switch_detection_mode`. -/
def switchDetectionMode (rule : Nat) (switch : DetectionModeSwitch) :
    Handler Row := do
  let owner ← Program.perform Op.begin
  let _previous ← Program.perform (Op.select rule)
  let read ← validatedMerge libraries owner rule switch.changes
  applyChanges owner rule switch.changes read

/-- The second half of `delete_alert_rule`. -/
def deleted (owner rule : Nat) : Option Row → Handler Row
  | none => abandon owner .notFound
  | some row => do
      close owner (.delete rule)
      pure row

/-- `delete_alert_rule`. -/
def deleteAlertRule (rule : Nat) : Handler Row := do
  let owner ← Program.perform Op.begin
  let row ← lockRule owner rule .update none
  deleted owner rule row

inductive Request where
  | create (body : Given)
  | update (rule : Nat) (body : Given)
  | switch (rule : Nat) (body : DetectionModeSwitch)
  | delete (rule : Nat)

def routes : Pool.System Database Request Op Reply Refusal Row Choice
    Change where
  code
    | .create body => createAlertRule libraries body
    | .update rule body => updateAlertRule libraries rule body
    | .switch rule body => switchDetectionMode libraries rule body
    | .delete rule => deleteAlertRule rule
  dead := .internal
  exec := exec
  change := change

/-- The requests and their stores. -/
abbrev Service := Pool Database Request Op Reply Refusal Row

abbrev Event := PoolEvent Request Choice Change

end IndustryFlow.AlertRules
