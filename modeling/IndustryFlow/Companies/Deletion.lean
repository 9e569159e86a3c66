import IndustryFlow.Companies.Lifecycle
import IndustryFlow.Tenancy.Keys

/-!
# Requesting and carrying out a deletion

The transactions of `update_company` and `request_company_deletion` on one
company, and the pass of the tenant-delete job over it.  A statement reads what
is committed when it runs.  `UPDATE` and `SELECT … FOR UPDATE` wait for the
lock of the company's row and then act on its latest version; what a
transaction writes is committed with it.  A transaction whose connection ends
loses its lock and cannot commit.
-/

namespace IndustryFlow.Deletion

open Concurrent Companies Tenancy

structure Row where
  name : Text
  isActive : Bool
  suspendedAt : Option Nat
  deletedAt : Option Nat
  deriving DecidableEq

/-- A row of `company_deletions`. -/
structure DeletionRow where
  requestedAt : Nat
  requestedBy : Text
  completedAt : Option Nat
  deriving DecidableEq

/-- What a transaction has written. -/
structure Writes where
  company : Option Row
  deletion : Option DeletionRow
  deriving DecidableEq

structure Database where
  company : Option Row
  deletion : Option DeletionRow
  /-- The stores recorded in `company_deletion_steps`. -/
  steps : List String
  /-- The holder of the row lock.  No two holders have the same number. -/
  lock : Option Nat
  holders : Nat
  clock : Nat
  /-- The stores the job emptied, each with the company's flag at that time. -/
  emptied : List (String × Bool)
  deriving DecidableEq

/-- A registry without a deletion. -/
def registry (company : Option Row) (clock : Nat) : Database :=
  ⟨company, none, [], none, 0, clock, []⟩

/-- The row that `UPDATE` of `update_company` leaves. -/
def Row.updated (row : Row) (name : Option Text) (isActive : Option Bool)
    (now : Nat) : Row :=
  { row with
    name := name.getD row.name
    isActive := isActive.getD row.isActive
    suspendedAt :=
      match isActive with
      | none => row.suspendedAt
      | some true => none
      | some false => some (row.suspendedAt.getD now) }

inductive Op where
  | begin
  /-- A statement that touches neither of the two tables. -/
  | statement
  | deletionRequested
  | update (name : Option Text) (isActive : Option Bool) (now : Nat)
  | selectForUpdate
  | insertDeletion
  | commit (holder : Nat) (writes : Writes)
  | rollback (holder : Nat)
  | pendingDeletions
  | emptyStore (store : String)
  | recordStep (store : String)
  | completeDeletion
  deriving DecidableEq

abbrev Reply : Op → Type
  | .begin => Nat
  | .statement => Except DbError Unit
  | .deletionRequested => Bool
  | .update _ _ _ => Except DbError (Option (Nat × Row))
  | .selectForUpdate => Except DbError (Option (Nat × Row))
  | .insertDeletion => Except DbError Unit
  | .commit _ _ => Except DbError Unit
  | .rollback _ => Unit
  | .pendingDeletions => Option (List String)
  | .emptyStore _ => Bool
  | .recordStep _ => Unit
  | .completeDeletion => Except DbError Unit

inductive Choice where
  | succeeds
  | raises (error : DbError)
  /-- The step of a store has done its part but the store is not yet empty. -/
  | notYet
  deriving DecidableEq

/-- `company_deletion_required_stores`. -/
def requiredStores : List String :=
  ["capability_store", "cold_layer", "tracking_store", "notebook_volumes",
    "device_certificates", "broker"]

/-- The next holder takes the lock with the version `row`. -/
def Database.take (database : Database) (row : Row) :
    Except DbError (Option (Nat × Row)) × Database :=
  (.ok (some (database.holders, row)),
    { database with
      lock := some database.holders
      holders := database.holders + 1 })

def Database.release (database : Database) (holder : Nat) : Database :=
  if database.lock = some holder then { database with lock := none }
  else database

def Database.apply (database : Database) (writes : Writes) : Database :=
  { database with
    company := writes.company.or database.company
    deletion := writes.deletion.or database.deletion
    lock := none }

def Database.active (database : Database) : Bool :=
  database.company.any Row.isActive

/-- The two updates at the end of `complete_company_deletion`. -/
def Database.complete (database : Database) : Database :=
  { database with
    company := database.company.map fun row =>
      { row with isActive := false, deletedAt := some database.clock }
    deletion := database.deletion.map fun deletion =>
      { deletion with completedAt := some database.clock }
    steps := "backups" :: "database" :: database.steps
    emptied := ("database", database.active) :: database.emptied }

def exec (database : Database) :
    (op : Op) → Choice → Option (Reply op × Database)
  | .begin, _ => some (database.clock, database)
  | .statement, .raises error => some (.error error, database)
  | .statement, _ => some (.ok (), database)
  | .deletionRequested, _ => some (database.deletion.isSome, database)
  | .update _ _ _, .raises error => some (.error error, database)
  | .update name isActive now, _ =>
      if database.lock.isSome then none
      else
        match database.company with
        | none => some (.ok none, database)
        | some row => some (database.take (row.updated name isActive now))
  | .selectForUpdate, .raises error => some (.error error, database)
  | .selectForUpdate, _ =>
      if database.lock.isSome then none
      else
        match database.company with
        | none => some (.ok none, database)
        | some row => some (database.take row)
  | .insertDeletion, .raises error => some (.error error, database)
  | .insertDeletion, _ =>
      if database.deletion.isSome then
        some (.error .uniqueViolation, database)
      else some (.ok (), database)
  | .commit holder _, .raises error =>
      some (.error error, database.release holder)
  | .commit holder writes, _ =>
      if database.lock = some holder then
        some (.ok (), database.apply writes)
      else some (.error .other, database)
  | .rollback holder, _ => some ((), database.release holder)
  | .pendingDeletions, _ =>
      some ((database.deletion.filter fun deletion =>
        deletion.completedAt.isNone).map fun _ => database.steps, database)
  | .emptyStore _, .notYet => some (false, database)
  | .emptyStore store, _ => some (true, { database with
      emptied := (store, database.active) :: database.emptied })
  | .recordStep store, _ => some ((), { database with
      steps := store :: database.steps })
  | .completeDeletion, .raises error => some (.error error, database)
  | .completeDeletion, _ =>
      match database.deletion with
      | none => some (.error .noDataFound, database)
      | some deletion =>
          if deletion.completedAt.isSome then some (.ok (), database)
          else if requiredStores.all (· ∈ database.steps) then
            if database.lock.isSome then none
            else some (.ok (), database.complete)
          else some (.error (.prerequisite "stores_pending"), database)

inductive Change where
  | tick (seconds : Nat)
  /-- The connection of the lock's holder ends. -/
  | disconnect
  deriving DecidableEq

def change (database : Database) : Change → Option Database
  | .tick seconds =>
      some { database with clock := database.clock + seconds }
  | .disconnect => some { database with lock := none }

/-! ## The transactions -/

abbrev Handler := Program Op Reply HttpError

abbrev begin : Handler Nat :=
  Program.perform Op.begin

abbrev statement : Handler (Except DbError Unit) :=
  Program.perform Op.statement

abbrev deletionRequested : Handler Bool :=
  Program.perform Op.deletionRequested

abbrev updateRow (name : Option Text) (isActive : Option Bool) (now : Nat) :
    Handler (Except DbError (Option (Nat × Row))) :=
  Program.perform (Op.update name isActive now)

abbrev selectForUpdate : Handler (Except DbError (Option (Nat × Row))) :=
  Program.perform Op.selectForUpdate

abbrev insertDeletion : Handler (Except DbError Unit) :=
  Program.perform Op.insertDeletion

abbrev commit (holder : Nat) (writes : Writes) :
    Handler (Except DbError Unit) :=
  Program.perform (Op.commit holder writes)

abbrev rollback (holder : Nat) : Handler Unit :=
  Program.perform (Op.rollback holder)

abbrev pendingDeletions : Handler (Option (List String)) :=
  Program.perform Op.pendingDeletions

abbrev emptyStore (store : String) : Handler Bool :=
  Program.perform (Op.emptyStore store)

abbrev recordStep (store : String) : Handler Unit :=
  Program.perform (Op.recordStep store)

abbrev completeDeletion : Handler (Except DbError Unit) :=
  Program.perform Op.completeDeletion

def fails {Answer : Type} (error : DbError) : Handler Answer :=
  .fail (provisioningError error)

def abandon {Answer : Type} (holder : Nat) (error : HttpError) :
    Handler Answer := do
  rollback holder
  .fail error

/-- So many statements on other tables, and the commit. -/
def settle (holder : Nat) (writes : Writes) : Nat → Handler Unit
  | 0 => do
      let ended ← commit holder writes
      match ended with
      | .error error => fails error
      | .ok _ => pure ()
  | left + 1 => do
      let answer ← statement
      match answer with
      | .error error => abandon holder (provisioningError error)
      | .ok _ => settle holder writes left

/-- `company_name_checked`. -/
def companyNameChecked (name : Text) : Option Text :=
  let trimmed := (name.dropWhile (· = ' ')).rdropWhile (· = ' ')
  if trimmed.isEmpty || trimmed.length > 255 || trimmed.any isControl then none
  else some trimmed

/-- The statements after `UPDATE`: the login, the row read back, the users and
the lifecycle records. -/
def updateStatements (name : Option Text) (isActive : Option Bool) : Nat :=
  1 + (if isActive.isSome then 2 else 0) +
    (if isActive = some false then 1 else 0) + if name.isSome then 1 else 0

/-- `update_company`, once it has seen no deletion. -/
def updateChecked (name : Option Text) (isActive : Option Bool) (now : Nat) :
    Handler Unit := do
  let answer ← updateRow name isActive now
  match answer with
  | .error error => fails error
  | .ok none => .fail companyNotFound
  | .ok (some (holder, row)) =>
      settle holder ⟨some row, none⟩ (updateStatements name isActive)

/-- `update_company`, from its look at the deletions on. -/
def updateGuarded (name : Option Text) (isActive : Option Bool) (now : Nat) :
    Handler Unit := do
  let requested ← deletionRequested
  if requested then fails (.prerequisite "deletion_requested")
  else updateChecked name isActive now

/-- `update_company`, in a transaction that began at `now`. -/
def updateStarted (name : Option Text) (isActive : Option Bool) (now : Nat) :
    Handler Unit := do
  let allowed ← statement
  match allowed with
  | .error error => fails error
  | .ok _ =>
      match name with
      | none => updateGuarded none isActive now
      | some given =>
          match companyNameChecked given with
          | none => fails .checkViolation
          | some checked => updateGuarded (some checked) isActive now

/-- The transaction around `update_company`. -/
def updateCompany (name : Option Text) (isActive : Option Bool) :
    Handler Unit := do
  let now ← begin
  updateStarted name isActive now

/-- `company_deletion_wait`, in seconds. -/
def deletionWait : Nat := 30 * 24 * 3600

/-- `_provisioning_error` of a deletion request. -/
def deletionError (error : DbError) : HttpError :=
  if error = .uniqueViolation then
    ⟨409, "A deletion of this company is already requested"⟩
  else provisioningError error

/-- `request_company_deletion`, from its insert on. -/
def requestInsert (actor : Text) (now holder : Nat) : Handler Unit := do
  let inserted ← insertDeletion
  match inserted with
  | .error error => abandon holder (deletionError error)
  | .ok _ => settle holder ⟨none, some ⟨now, actor, none⟩⟩ 2

/-- `request_company_deletion`, once it has the company's row. -/
def requestLocked (actor : Text) (now holder : Nat) (row : Row) :
    Handler Unit :=
  if row.isActive || row.suspendedAt.isNone then
    abandon holder (provisioningError (.prerequisite "not_suspended"))
  else if row.suspendedAt.any fun since => now < since + deletionWait then
    abandon holder (provisioningError (.prerequisite "suspended_too_recently"))
  else requestInsert actor now holder

/-- `request_company_deletion`, from its `SELECT … FOR UPDATE` on. -/
def requestGuarded (actor : Text) (now : Nat) : Handler Unit := do
  let locked ← selectForUpdate
  match locked with
  | .error error => fails error
  | .ok none => fails .noDataFound
  | .ok (some (holder, row)) => requestLocked actor now holder row

/-- `request_company_deletion`, in a transaction that began at `now`. -/
def requestStarted (actor : Text) (now : Nat) : Handler Unit := do
  let allowed ← statement
  match allowed with
  | .error error => fails error
  | .ok _ => requestGuarded actor now

/-- The transaction around `request_company_deletion`. -/
def requestDeletion (actor : Text) : Handler Unit := do
  let now ← begin
  requestStarted actor now

/-! ## The job -/

/-- `_delete` up to the database; the answer is whether no store waits. -/
def emptyStores (removed : List String) : List String → Handler Bool
  | [] => pure true
  | store :: stores =>
      if store ∈ removed then emptyStores removed stores
      else do
        let removal ← emptyStore store
        if removal then do
          recordStep store
          emptyStores removed stores
        else do
          let _ ← emptyStores removed stores
          pure false

/-- `_delete`, for a company pending with the stores `removed`. -/
def deletePending (removed : List String) : Handler Unit := do
  let emptied ← emptyStores removed requiredStores
  if emptied then do
    let completed ← completeDeletion
    match completed with
    | .error error => fails error
    | .ok _ => pure ()
  else pure ()

/-- `run`, for one company. -/
def runJob : Handler Unit := do
  let pending ← pendingDeletions
  match pending with
  | none => pure ()
  | some removed => deletePending removed

inductive Request where
  | update (name : Option Text) (isActive : Option Bool)
  | deletion (actor : Text)
  | job
  deriving DecidableEq

def handle : Request → Handler Unit
  | .update name isActive => updateCompany name isActive
  | .deletion actor => requestDeletion actor
  | .job => runJob

def deletions :
    Pool.System Database Request Op Reply HttpError Unit Choice Change where
  code := handle
  dead := ⟨500, "Internal Server Error"⟩
  exec := exec
  change := change

abbrev Registry := Pool Database Request Op Reply HttpError Unit

abbrev Event := PoolEvent Request Choice Change

end IndustryFlow.Deletion
