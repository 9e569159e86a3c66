import IndustryFlow.Concurrent.Pool
import IndustryFlow.Concurrent.RowLocks

/-!
# Feature configurations and the models bound to them

The transactions that read, edit, delete and bind the feature configurations
of a tenant, under READ COMMITTED.  Every statement reads what is committed
when it starts.  One that locks a row waits for the locks in its way and then
acts on the latest version of the row, if it is still there.  The triggers run
behind the lock and read what is committed by then.  What a transaction writes
is committed with it.
-/

namespace IndustryFlow.FeatureConfigs

open Concurrent

/-! ## JSON documents -/

/-- A `jsonb` value: a number is its value, whatever its scale, and the fields
of an object stand in the order of `jsonb`, each of them once. -/
inductive Document where
  | null
  | bool (value : Bool)
  | num (value : Rat)
  | str (text : String)
  | arr (items : List Document)
  | obj (fields : List (String × Document))

namespace Document

mutual

def same : Document → Document → Bool
  | .null, .null => true
  | .bool left, .bool right => left = right
  | .num left, .num right => left = right
  | .str left, .str right => left = right
  | .arr left, .arr right => sameItems left right
  | .obj left, .obj right => sameFields left right
  | _, _ => false

def sameItems : List Document → List Document → Bool
  | [], [] => true
  | left :: lefts, right :: rights =>
      left.same right && sameItems lefts rights
  | _, _ => false

def sameFields : List (String × Document) → List (String × Document) → Bool
  | [], [] => true
  | (key, left) :: lefts, (other, right) :: rights =>
      key = other && left.same right && sameFields lefts rights
  | _, _ => false

end

mutual

theorem same_iff : (left right : Document) →
    (left.same right = true ↔ left = right)
  | .null, right => by cases right <;> simp [same]
  | .bool _, right => by cases right <;> simp [same]
  | .num _, right => by cases right <;> simp [same]
  | .str _, right => by cases right <;> simp [same]
  | .arr items, right => by
      cases right with
      | arr others => simp [same, sameItems_iff items others]
      | _ => simp [same]
  | .obj fields, right => by
      cases right with
      | obj others => simp [same, sameFields_iff fields others]
      | _ => simp [same]

theorem sameItems_iff : (left right : List Document) →
    (sameItems left right = true ↔ left = right)
  | [], right => by cases right <;> simp [sameItems]
  | left :: lefts, [] => by simp [sameItems]
  | left :: lefts, right :: rights => by
      simp [sameItems, same_iff left right, sameItems_iff lefts rights]

theorem sameFields_iff : (left right : List (String × Document)) →
    (sameFields left right = true ↔ left = right)
  | [], right => by cases right <;> simp [sameFields]
  | (key, left) :: lefts, [] => by simp [sameFields]
  | (key, left) :: lefts, (other, right) :: rights => by
      simp [sameFields, same_iff left right, sameFields_iff lefts rights]

end

instance : DecidableEq Document := fun left right =>
  decidable_of_iff (left.same right = true) (same_iff left right)

/-- The document with its booleans as the numbers that Python counts them
as. -/
def counted : Document → Document
  | .bool value => .num (if value then 1 else 0)
  | .arr items => .arr (countedItems items)
  | .obj fields => .obj (countedFields fields)
  | other => other
where
  countedItems : List Document → List Document
    | [] => []
    | item :: items => item.counted :: countedItems items
  countedFields : List (String × Document) → List (String × Document)
    | [] => []
    | (key, value) :: fields => (key, value.counted) :: countedFields fields

end Document

/-! ## The tables -/

/-- What a model computes its input vector from. -/
structure Inputs where
  baseSensors : Document
  transformations : Document
deriving DecidableEq

/-- The comparison of `create_model`, which is Python's `==`. -/
def Inputs.Equal (inputs other : Inputs) : Prop :=
  inputs.baseSensors.counted = other.baseSensors.counted ∧
    inputs.transformations.counted = other.transformations.counted

instance (inputs other : Inputs) : Decidable (inputs.Equal other) :=
  inferInstanceAs (Decidable (_ ∧ _))

/-- A row of `feature_engineering_configs`. -/
structure Config extends Inputs where
  equipmentType : String
  name : String
  description : Option String
deriving DecidableEq

/-- A row of `ml_models`.  The inputs that its registration validated are not
in the table. -/
structure Model where
  modelId : Nat
  featureConfigId : Option Nat
  validated : Option Inputs
deriving DecidableEq

inductive RowId where
  | config (config : Nat)
  | model (model : Nat)
deriving DecidableEq

/-- What is committed, and the transactions in progress. -/
structure Database where
  configs : Nat → Option Config
  models : List Model
  locking : Locking RowId

def Database.start (configs : Nat → Option Config) : Database :=
  ⟨configs, [], .idle⟩

/-- The configuration a registration binds, as it validated it. -/
structure Bound where
  config : Nat
  validated : Inputs
deriving DecidableEq

/-- What a transaction has written.  The id of a row that it inserts is the
number of the transaction. -/
inductive Write where
  | nothing
  | create (row : Config)
  | config (config : Nat) (row : Option Config)
  | model (bound : Option Bound)
  | binding (model : Nat) (config : Option Nat)

namespace Database

def setConfig (database : Database) (config : Nat) (row : Option Config) :
    Database :=
  { database with
    configs := fun other =>
      if other = config then row else database.configs other }

def addModel (database : Database) (modelId : Nat) (bound : Option Bound) :
    Database :=
  { database with models := database.models ++
      [⟨modelId, bound.map Bound.config, bound.map Bound.validated⟩] }

/-- What is committed with the transaction, unless a key is taken. -/
def apply (database : Database) (owner : Nat) : Write → Option Database
  | .nothing => some database
  | .create row =>
      if (database.configs owner).isSome then none
      else some (database.setConfig owner (some row))
  | .config config row => some (database.setConfig config row)
  | .model bound =>
      if ∃ model ∈ database.models, model.modelId = owner then none
      else some (database.addModel owner bound)
  | .binding model config => some { database with
      models := database.models.map fun row =>
        if row.modelId = model then { row with featureConfigId := config }
        else row }

def finish (database : Database) (owner : Nat) : Database :=
  { database with locking := database.locking.finish owner }

def model? (database : Database) (modelId : Nat) : Option Model :=
  database.models.find? (·.modelId = modelId)

/-- The models with this configuration. -/
def boundModels (database : Database) (config : Nat) : List Nat :=
  (database.models.filter (·.featureConfigId = some config)).map
    Model.modelId

def hasRow (database : Database) : RowId → Bool
  | .config config => (database.configs config).isSome
  | .model model => (database.model? model).isSome

end Database

/-! ## Statements -/

inductive Op where
  | begin
  /-- A read of a configuration, in a transaction of its own. -/
  | select (config : Nat)
  /-- The other checks of a registration. -/
  | checkSensors (config : Config)
  /-- Whether the rows that a statement starts from have this one. -/
  | scan (row : RowId)
  | lockConfig (owner config : Nat) (mode : LockMode)
  | lockModel (owner model : Nat)
  | boundModels (config : Nat)
  | commit (owner : Nat) (write : Write)
  | rollback (owner : Nat)

abbrev Reply : Op → Type
  | .begin => Nat
  | .select _ => Option Config
  | .checkSensors _ => Bool
  | .scan _ => Bool
  | .lockConfig _ _ _ => Except Unit (Option Config)
  | .lockModel _ _ => Except Unit (Option Model)
  | .boundModels _ => List Nat
  | .commit _ _ => Except Unit Unit
  | .rollback _ => Unit

inductive Choice where
  | succeeds
  | raises
deriving DecidableEq

/-- A lock, for a transaction that is still in progress: the row behind it, if
it is still there. -/
def lockRow {Row : Type} (database : Database) (lock : RowLock RowId)
    (row : Option Row) : Option (Except Unit (Option Row) × Database) :=
  if lock.owner ∉ database.locking.active then some (.error (), database)
  else if database.locking.Free lock then
    match row with
    | none => some (.ok none, database)
    | some row => some (.ok (some row),
        { database with locking := database.locking.take lock })
  else none

def exec (database : Database) :
    (op : Op) → Choice → Option (Reply op × Database)
  | .begin, _ => some (database.locking.next,
      { database with locking := database.locking.begin })
  | .select config, _ => some (database.configs config, database)
  | .checkSensors _, choice => some (choice = .succeeds, database)
  | .scan row, _ => some (database.hasRow row, database)
  | .lockConfig _ _ _, .raises => some (.error (), database)
  | .lockConfig owner config mode, .succeeds =>
      lockRow database ⟨owner, .config config, mode⟩ (database.configs config)
  | .lockModel _ _, .raises => some (.error (), database)
  | .lockModel owner model, .succeeds =>
      lockRow database ⟨owner, .model model, .noKeyUpdate⟩
        (database.model? model)
  | .boundModels config, _ => some (database.boundModels config, database)
  | .commit owner _, .raises => some (.error (), database.finish owner)
  | .commit owner write, .succeeds =>
      if owner ∈ database.locking.active then
        match database.apply owner write with
        | none => some (.error (), database.finish owner)
        | some after => some (.ok (), after.finish owner)
      else some (.error (), database)
  | .rollback owner, _ => some ((), database.finish owner)

/-- The connection of a transaction ends. -/
inductive Change where
  | disconnect (owner : Nat)
deriving DecidableEq

def change (database : Database) : Change → Option Database
  | .disconnect owner => some (database.finish owner)

/-! ## The transactions -/

inductive Refusal where
  | featureConfigMissing (config : Nat)
  | sensorsMissing
  | featureConfigChanged (config : Nat)
  | notCreated
  | notFound
  | bound (config : Nat)
  | bindingFixed (model : Nat)
  | unreachable
deriving DecidableEq

def Refusal.status : Refusal → Nat
  | .featureConfigMissing _ => 422
  | .sensorsMissing => 422
  | .featureConfigChanged _ => 409
  | .notCreated => 500
  | .notFound => 404
  | .bound _ => 409
  | .bindingFixed _ => 409
  | .unreachable => 500

abbrev Handler := Program Op Reply Refusal

def abandon {Answer : Type} (owner : Nat) (refusal : Refusal) :
    Handler Answer := do
  Program.perform (Op.rollback owner)
  .fail refusal

def close (owner : Nat) (write : Write) (raised : Refusal) :
    Handler Unit := do
  let ended ← Program.perform (Op.commit owner write)
  match ended with
  | .error _ => .fail raised
  | .ok _ => pure ()

/-- A statement that locks the row of a configuration. -/
def lockConfig (owner config : Nat) (mode : LockMode) (raised : Refusal) :
    Handler (Option Config) := do
  let visible ← Program.perform (Op.scan (.config config))
  if visible then do
    let locked ← Program.perform (Op.lockConfig owner config mode)
    match locked with
    | .error _ => abandon owner raised
    | .ok row => pure row
  else pure none

/-- `hold_feature_config_binding`; `old` is there for an update. -/
def holdFeatureConfigBinding (owner : Nat) (old : Option Model)
    (new : Option Nat) (raised : Refusal) : Handler Unit :=
  match old.filter (·.featureConfigId ≠ new) with
  | some model => abandon owner (.bindingFixed model.modelId)
  | none =>
      match new with
      | none => pure ()
      | some config => do
          let _ ← lockConfig owner config .share raised
          pure ()

/-- The foreign key of an inserted model. -/
def checkForeignKey (owner : Nat) (new : Option Nat) (raised : Refusal) :
    Handler Unit :=
  match new with
  | none => pure ()
  | some config => do
      let row ← lockConfig owner config .keyShare raised
      if row.isSome then pure () else abandon owner raised

/-- The insert of `create_model`. -/
def insertModel (owner : Nat) (bound : Option Bound) : Handler Unit := do
  holdFeatureConfigBinding owner none (bound.map Bound.config) .notCreated
  checkForeignKey owner (bound.map Bound.config) .notCreated
  close owner (.model bound) .notCreated

/-- `create_model`. -/
def createModel (bound : Option Bound) : Handler Unit := do
  let owner ← Program.perform Op.begin
  match bound with
  | none => insertModel owner none
  | some bound => do
      let row ← lockConfig owner bound.config .share .unreachable
      match row with
      | none => abandon owner (.featureConfigChanged bound.config)
      | some row =>
          if row.toInputs.Equal bound.validated then
            insertModel owner (some bound)
          else abandon owner (.featureConfigChanged bound.config)

/-- `register_model`, from `_bind_inputs_and_baseline` on. -/
def registerModel (config : Option Nat) : Handler Unit :=
  match config with
  | none => createModel none
  | some config => do
      let found ← Program.perform (Op.select config)
      match found with
      | none => .fail (.featureConfigMissing config)
      | some row => do
          let complete ← Program.perform (Op.checkSensors row)
          if complete then createModel (some ⟨config, row.toInputs⟩)
          else .fail .sensorsMissing

/-- The arguments of `update_feature_config`. -/
structure Edit where
  equipmentType : Option String
  name : Option String
  description : Option String
  baseSensors : Option Document
  transformations : Option Document
deriving DecidableEq

def Edit.isEmpty (edit : Edit) : Bool :=
  edit.equipmentType.isNone && edit.name.isNone &&
    edit.description.isNone && edit.baseSensors.isNone &&
      edit.transformations.isNone

def Edit.apply (edit : Edit) (row : Config) : Config where
  equipmentType := edit.equipmentType.getD row.equipmentType
  name := edit.name.getD row.name
  description := edit.description.or row.description
  baseSensors := edit.baseSensors.getD row.baseSensors
  transformations := edit.transformations.getD row.transformations

/-- The columns of `unique_equipment_config` are a key. -/
def Edit.mode (edit : Edit) : LockMode :=
  if edit.equipmentType.isSome || edit.name.isSome then .update
  else .noKeyUpdate

/-- `refuse_bound_feature_config_change`; the edit keeps the id. -/
def refuseBoundFeatureConfigChange (owner config : Nat) (old new : Config) :
    Handler Unit :=
  if new.toInputs = old.toInputs then pure ()
  else do
    let models ← Program.perform (Op.boundModels config)
    if models = [] then pure () else abandon owner (.bound config)

/-- `update_feature_config`. -/
def updateFeatureConfig (config : Nat) (edit : Edit) : Handler Unit :=
  if edit.isEmpty then do
    let row ← Program.perform (Op.select config)
    if row.isSome then pure () else .fail .notFound
  else do
    let owner ← Program.perform Op.begin
    let row ← lockConfig owner config edit.mode .unreachable
    match row with
    | none => do
        close owner .nothing .unreachable
        .fail .notFound
    | some old => do
        refuseBoundFeatureConfigChange owner config old (edit.apply old)
        close owner (.config config (some (edit.apply old))) .unreachable

/-- The foreign keys to a deleted configuration: `ON DELETE RESTRICT`. -/
def restrictDelete (owner config : Nat) : Handler Unit := do
  let models ← Program.perform (Op.boundModels config)
  if models = [] then pure () else abandon owner (.bound config)

/-- `delete_feature_config`. -/
def deleteFeatureConfig (config : Nat) : Handler Unit := do
  let owner ← Program.perform Op.begin
  let row ← lockConfig owner config .update .unreachable
  match row with
  | none => do
      close owner .nothing .unreachable
      .fail .notFound
  | some _ => do
      restrictDelete owner config
      close owner (.config config none) .unreachable

/-- `create_feature_config`. -/
def createFeatureConfig (row : Config) : Handler Unit := do
  let owner ← Program.perform Op.begin
  close owner (.create row) .unreachable

/-- An update of the configuration of a model; the services make none. -/
def rebindModel (model : Nat) (config : Option Nat) : Handler Unit := do
  let owner ← Program.perform Op.begin
  let visible ← Program.perform (Op.scan (.model model))
  if visible then do
    let locked ← Program.perform (Op.lockModel owner model)
    match locked with
    | .error _ => abandon owner .unreachable
    | .ok none => close owner .nothing .unreachable
    | .ok (some old) => do
        holdFeatureConfigBinding owner (some old) config .unreachable
        close owner (.binding model config) .unreachable
  else close owner .nothing .unreachable

inductive Request where
  | register (config : Option Nat)
  | edit (config : Nat) (edit : Edit)
  | delete (config : Nat)
  | create (row : Config)
  | rebind (model : Nat) (config : Option Nat)
deriving DecidableEq

def handle : Request → Handler Unit
  | .register config => registerModel config
  | .edit config edit => updateFeatureConfig config edit
  | .delete config => deleteFeatureConfig config
  | .create row => createFeatureConfig row
  | .rebind model config => rebindModel model config

def tenant :
    Pool.System Database Request Op Reply Refusal Unit Choice Change where
  code := handle
  dead := .unreachable
  exec := exec
  change := change

abbrev Tenant := Pool Database Request Op Reply Refusal Unit

abbrev Event := PoolEvent Request Choice Change

end IndustryFlow.FeatureConfigs
