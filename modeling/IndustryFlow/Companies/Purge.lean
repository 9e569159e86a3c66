import IndustryFlow.ColdExport.Exporter
import IndustryFlow.Companies.Deletion
import IndustryFlow.Concurrent.Order

/-!
# Deletion passes beside export runs

What a tenant has in the cold archive and in the database, with the two jobs
that work on it: the nightly export, which moves the days that are old enough
into the archive, and the tenant-delete job, which empties store by store and
drops the schema last.  Each job has a lock of its own.

The days of the archive are those of the export of one day, each call of it
with its own day.  A day is the text of its date.  What an export does to the
other tenants lies under other keys.
-/

namespace IndustryFlow.Purge

open Concurrent ColdExport

/-! ## The platform -/

/-- A key under the company's prefix. -/
inductive ObjectKey where
  | part (day file : String)
  | manifest (day : String)
deriving DecidableEq

/-- A map as the list of its entries. -/
def put {Key Value : Type} [DecidableEq Key] (key : Key) (value : Value)
    (entries : List (Key × Value)) : List (Key × Value) :=
  (key, value) :: entries.filter (·.1 ≠ key)

structure Platform where
  parts : List ((String × String) × List Measurement)
  manifests : List (String × Manifest)
  /-- The tenant's schema with the rows of every day; `none` once dropped. -/
  schema : Option (List (String × Day))
  /-- `cold_export_drops`: day, part and rows. -/
  drops : List (String × String × Nat)
  /-- The `schema_name` of the company in the registry. -/
  schemaName : Option String
  requested : Bool
  completed : Bool
  /-- The stores in `company_deletion_steps`. -/
  steps : List String
  exportLock : Bool
  deleteLock : Bool

namespace Platform

def keys (platform : Platform) : List ObjectKey :=
  platform.parts.map (fun entry => .part entry.1.1 entry.1.2) ++
    platform.manifests.map fun entry => .manifest entry.1

def day (platform : Platform) (day : String) : Day :=
  ((platform.schema.getD []).lookup day).getD .empty

/-- The day as its export sees it. -/
def stores (platform : Platform) (day : String) : Stores where
  source := platform.day day
  archive :=
    { files := fun file => platform.parts.lookup (day, file)
      manifest := platform.manifests.lookup day
      drops := (platform.drops.filter (·.1 = day)).map Prod.snd
      removed := [] }

/-- What a call of the day's export has changed. -/
def absorb (platform : Platform) (day : String) (op : ColdExport.Op)
    (after : Stores) : Platform :=
  { platform with
    parts := match op with
      | .writePart file _ => (after.archive.files file).elim platform.parts
          fun rows => put (day, file) rows platform.parts
      | _ => platform.parts
    manifests := match op with
      | .writeManifest _ => after.archive.manifest.elim platform.manifests
          fun manifest => put day manifest platform.manifests
      | _ => platform.manifests
    schema := match op with
      | .drop _ _ => platform.schema.map (put day after.source)
      | _ => platform.schema
    drops := match op with
      | .drop _ _ => after.archive.drops.map (day, ·) ++
          platform.drops.filter (·.1 ≠ day)
      | _ => platform.drops }

/-- `SELECT DISTINCT … ORDER BY d`. -/
def exportableDays (platform : Platform) (cutoff : String) :
    Option (List String) :=
  platform.schema.map fun days =>
    ((days.filter fun entry => entry.1 < cutoff && entry.2.rows ≠ []).map
      Prod.fst).insertionSort fun first second => first ≤ second

def deleteObjects (platform : Platform) (gone : List ObjectKey) : Platform :=
  { platform with
    parts := platform.parts.filter fun entry =>
      ObjectKey.part entry.1.1 entry.1.2 ∉ gone
    manifests := platform.manifests.filter fun entry =>
      ObjectKey.manifest entry.1 ∉ gone }

/-- The registry says that the deletion is still to be carried out. -/
def pending (platform : Platform) : Bool :=
  platform.requested && !platform.completed

def record (platform : Platform) (store : String) : Platform :=
  { platform with steps :=
      if store ∈ platform.steps then platform.steps
      else store :: platform.steps }

/-- `complete_company_deletion`, from the drop of the schema on. -/
def complete (platform : Platform) : Platform :=
  { platform with
    schema := none
    drops := []
    completed := true
    steps := "backups" :: "database" :: platform.steps }

end Platform

/-! ## Calls -/

inductive Op where
  | tryExportLock
  | releaseExportLock
  /-- The company's row in the listing of the tenants. -/
  | listTenants
  | exportableDays (cutoff : String)
  | day (day : String) (op : ColdExport.Op)
  | tryDeleteLock
  | releaseDeleteLock
  | pending
  | userIds
  | listObjects
  | deleteObjects (keys : List ObjectKey)
  /-- The step of a store other than the cold layer. -/
  | emptyStore (store : String)
  | record (store : String)
  | complete
  /-- A job that has not come to an end. -/
  | hang
deriving DecidableEq

/-- A call that raises replies `none`. -/
abbrev Reply : Op → Type
  | .tryExportLock => Option Bool
  | .releaseExportLock => Unit
  | .listTenants => Option (Option String)
  | .exportableDays _ => Option (List String)
  | .day _ op => Option (ColdExport.Reply op)
  | .tryDeleteLock => Option Bool
  | .releaseDeleteLock => Unit
  | .pending => Option (Option (List String))
  | .userIds => Option Unit
  | .listObjects => Option (List ObjectKey)
  | .deleteObjects _ => Option (List ObjectKey)
  | .emptyStore _ => Option Bool
  | .record _ => Option Unit
  | .complete => Option Unit
  | .hang => Empty

inductive Choice where
  | succeeds
  | raises
  /-- The step of a store has done its part but the store is not yet empty. -/
  | notYet
  /-- These objects are not deleted, and reported. -/
  | refuses (kept : List ObjectKey)
  /-- These objects are reported deleted and are still there. -/
  | keeps (kept : List ObjectKey)
deriving DecidableEq

structure Config where
  hash : Measurement → Int
  /-- The canonical schema of the company. -/
  schema : String
  /-- The stores that the deployment has a step for. -/
  steps : List String

/-- The most keys of one listing and of one request to delete. -/
def batch : Nat := 1000

/-- The call needs the tenant's schema. -/
def needsSchema : ColdExport.Op → Bool
  | .snapshotDay | .drop _ _ => true
  | _ => false

variable (config : Config)

def exec (platform : Platform) :
    (op : Op) → Choice → Option (Reply op × Platform)
  | .tryExportLock, .raises => some (none, platform)
  | .tryExportLock, _ =>
      some (some (!platform.exportLock), { platform with exportLock := true })
  | .releaseExportLock, _ => some ((), { platform with exportLock := false })
  | .listTenants, .raises => some (none, platform)
  | .listTenants, _ => some (some platform.schemaName, platform)
  | .exportableDays _, .raises => some (none, platform)
  | .exportableDays cutoff, _ =>
      some (platform.exportableDays cutoff, platform)
  | .day _ _, .raises => some (none, platform)
  | .day day op, _ =>
      if needsSchema op && platform.schema.isNone then some (none, platform)
      else (ColdExport.exec config.hash (platform.stores day) op ()).map
        fun executed => (some executed.1, platform.absorb day op executed.2)
  | .tryDeleteLock, .raises => some (none, platform)
  | .tryDeleteLock, _ =>
      some (some (!platform.deleteLock), { platform with deleteLock := true })
  | .releaseDeleteLock, _ => some ((), { platform with deleteLock := false })
  | .pending, .raises => some (none, platform)
  | .pending, _ =>
      some (some (if platform.pending then some platform.steps else none),
        platform)
  | .userIds, .raises => some (none, platform)
  | .userIds, _ => some (some (), platform)
  | .listObjects, .raises => some (none, platform)
  | .listObjects, _ => some (some (platform.keys.take batch), platform)
  | .deleteObjects _, .raises => some (none, platform)
  | .deleteObjects keys, .refuses kept =>
      some (some (keys.filter (· ∈ kept)),
        platform.deleteObjects (keys.filter (· ∉ kept)))
  | .deleteObjects keys, .keeps kept =>
      some (some [], platform.deleteObjects (keys.filter (· ∉ kept)))
  | .deleteObjects keys, _ => some (some [], platform.deleteObjects keys)
  | .emptyStore _, .raises => some (none, platform)
  | .emptyStore _, .notYet => some (some false, platform)
  | .emptyStore _, _ => some (some true, platform)
  | .record _, .raises => some (none, platform)
  | .record store, _ =>
      if platform.pending && store ∈ Deletion.requiredStores then
        some (some (), platform.record store)
      else some (none, platform)
  | .complete, .raises => some (none, platform)
  | .complete, _ =>
      if !platform.requested then some (none, platform)
      else if platform.completed then some (some (), platform)
      else if Deletion.requiredStores.all (· ∈ platform.steps) &&
          platform.schemaName = some config.schema then
        some (some (), platform.complete)
      else some (none, platform)
  | .hang, _ => none

inductive Change where
  /-- A row of the tenant changes. -/
  | source (day : String) (change : ColdExport.Change)
  | request
  /-- The hub has removed the tenant's volumes. -/
  | volumesReclaimed
  /-- The holder of a lock is gone. -/
  | freeExportLock
  | freeDeleteLock
deriving DecidableEq

def change (platform : Platform) : Change → Option Platform
  | .source day event =>
      if platform.schema.isNone then none
      else (ColdExport.change (platform.stores day) event).map fun after =>
        { platform with schema := platform.schema.map (put day after.source) }
  | .request => some { platform with requested := true }
  | .volumesReclaimed =>
      if platform.pending then some (platform.record "notebook_volumes")
      else none
  | .freeExportLock => some { platform with exportLock := false }
  | .freeDeleteLock => some { platform with deleteLock := false }

/-! ## The export -/

inductive Failure where
  | export (error : ExportError)
  /-- The registry's schema is not the canonical one. -/
  | registry
  | raised
  /-- Objects that were reported deleted are still there. -/
  | kept (count : Nat)
  /-- Objects that were not deleted. -/
  | refused (count : Nat)
  | died
deriving DecidableEq

abbrev Job := Program Op Reply Failure

/-- A call that may raise. -/
def call {Answer : Type} (op : Op) (reply : Reply op = Option Answer) :
    Job Answer :=
  .call op fun answer =>
    match cast reply answer with
    | some answer => .done answer
    | none => .fail .raised

/-- `export_day`. -/
def exportDayOf (day : String) : Job Outcome :=
  (exportDay ⟨config.schema, day⟩).lift (Op.day day)
    (fun _ reply => match reply with
      | some answer => .ok answer
      | none => .error .raised)
    Failure.export

def exportDays : List String → Job Unit
  | [] => pure ()
  | day :: days => do
      let _ ← exportDayOf config day
      exportDays days

/-- `export_tenant`. -/
def exportTenant (cutoff schemaName : String) : Job Unit :=
  if schemaName ≠ config.schema then .fail .registry
  else do
    let days ← call (.exportableDays cutoff) rfl
    exportDays config days

/-- `_run_export_locked`. -/
def runExportLocked (cutoff : String) : Job Unit := do
  let listed ← call .listTenants rfl
  match listed with
  | none => pure ()
  | some schemaName => exportTenant config cutoff schemaName

/-- `run_export`, which leaves its lock also when it raises. -/
def runExport (cutoff : String) : Job Unit := do
  let acquired ← call .tryExportLock rfl
  if acquired then do
    let ended ← (runExportLocked config cutoff).attempt
    Program.perform Op.releaseExportLock
    match ended with
    | .ok _ => pure ()
    | .error failure => .fail failure
  else pure ()

/-! ## The deletion -/

/-- `ColdStore.purge`, for so many listings. -/
def purge (previous : Option (List ObjectKey)) : Nat → Job Unit
  | 0 => .call .hang fun never => nomatch never
  | rounds + 1 => do
      let keys ← call .listObjects rfl
      if keys = [] then pure ()
      else if previous = some keys then .fail (.kept keys.length)
      else do
        let errors ← call (.deleteObjects keys) rfl
        if errors = [] then purge (some keys) rounds
        else .fail (.refused errors.length)

/-- The step of a store: whether the store is empty. -/
def step (rounds : Nat) (store : String) : Job Bool :=
  if store = "cold_layer" then do
    purge none rounds
    pure true
  else call (.emptyStore store) rfl

/-- `_delete` up to the database; the answer is whether no store waits. -/
def emptyStores (rounds : Nat) (removed : List String) (asked : Bool) :
    List String → Job Bool
  | [] => pure true
  | store :: stores =>
      if store ∈ removed then emptyStores rounds removed asked stores
      else if store ∉ config.steps then do
        let _ ← emptyStores rounds removed asked stores
        pure false
      else do
        if asked then pure () else call .userIds rfl
        let empty ← step rounds store
        if empty then do
          call (.record store) rfl
          emptyStores rounds removed true stores
        else do
          let _ ← emptyStores rounds removed true stores
          pure false

/-- `_delete`. -/
def delete (rounds : Nat) (removed : List String) : Job Unit := do
  let empty ← emptyStores config rounds removed false Deletion.requiredStores
  if empty then call .complete rfl else pure ()

/-- `run`: a failed deletion does not fail the run. -/
def run (rounds : Nat) : Job Unit := do
  let acquired ← call .tryDeleteLock rfl
  if acquired then do
    let ended ← (do
      let pending ← call .pending rfl
      match pending with
      | none => pure ()
      | some removed => do
          let _ ← (delete config rounds removed).attempt
          pure () : Job Unit).attempt
    Program.perform Op.releaseDeleteLock
    match ended with
    | .ok _ => pure ()
    | .error failure => .fail failure
  else pure ()

inductive Request where
  | export (cutoff : String)
  | delete (rounds : Nat)
deriving DecidableEq

def handle : Request → Job Unit
  | .export cutoff => runExport config cutoff
  | .delete rounds => run config rounds

def jobs : Pool.System Platform Request Op Reply Failure Unit Choice Change where
  code := handle config
  dead := .died
  exec := exec config
  change := change

abbrev Jobs := Pool Platform Request Op Reply Failure Unit

abbrev Event := PoolEvent Request Choice Change

end IndustryFlow.Purge
