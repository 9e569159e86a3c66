import IndustryFlow.Concurrent.Loops
import IndustryFlow.Concurrent.Pool
import IndustryFlow.Models.Registry

/-!
# The artifact a run addresses

A model trained in a notebook is addressed by its run, and every check and
every cold load asks the tracking store anew which logged model the run has.
The gates are those of the registry, here beside one another and beside what is
logged meanwhile; what does not bear on the artifact is one call whose answer
is open.  `firsts`, `judged` and `loads` are not read by the code.
-/

namespace IndustryFlow.Models.Serving

open Concurrent

structure LoggedModel where
  modelId : String
  sourceRunId : String
deriving DecidableEq

/-- What a resolution came to.  `seen` is the place in `firsts` of the run's
first model when the search was answered, and nothing if it was not. -/
structure Resolved where
  uri : String
  seen : Option Nat
deriving DecidableEq

/-- What the two checks of a deployment read. -/
structure Judged where
  authorCode : Resolved
  compatibility : Resolved
deriving DecidableEq

/-- A row of the registry, with its last successful deployment. -/
structure Record where
  address : Address
  detector : Option String
  status : Status
  judged : Option Judged
deriving DecidableEq

/-- A cold load, with the row at that moment. -/
structure Loaded where
  record : Record
  resolved : Resolved
deriving DecidableEq

structure Store where
  records : String → Option Record
  /-- The logged models in the order of a search. -/
  logged : List LoggedModel
  /-- The models that have been the first of a run, the present one last. -/
  firsts : String → List (Option String)
  /-- The warm models of the process, the least recently used one first. -/
  cache : List (String × String)
  loads : List Loaded

/-- The run's logged models. -/
def ofRun (logged : List LoggedModel) (runId : String) : List LoggedModel :=
  logged.filter (·.sourceRunId = runId)

def first (logged : List LoggedModel) (runId : String) : Option String :=
  (ofRun logged runId).head?.map LoggedModel.modelId

/-- No model is registered yet. -/
def start (logged : List LoggedModel) : Store where
  records _ := none
  logged := logged
  firsts runId := [first logged runId]
  cache := []
  loads := []

structure Settings where
  deployment : Deployment
  /-- How many models a page of a search carries, less one. -/
  pageSize : Nat
  /-- How many pages a search is followed for before it counts as endless. -/
  rounds : Nat
  /-- `MODEL_CACHE_SIZE`. -/
  cacheSize : Nat

variable (settings : Settings)

/-! ## Calls -/

inductive Op where
  | getModel (modelId : String)
  | insert (address : Address) (detector : Option String) (status : Status)
  | setStatus (modelId : String) (status : Status) (judged : Option Judged)
  | runOwned (runId : String)
  | getRun (runId : String)
  | searchPage (runId : String) (token : Option Nat)
  | readFlavors (uri : String)
  | compatibility (uri : String)
  /-- The rest of the registration's checks. -/
  | bindInputs
  | detectorLoaded (name : String)
  /-- Whether there is a sample to score. -/
  | plan (modelId : String)
  | probe (uri : String)
  | warm (key : String)
  | load (modelId : String) (resolved : Resolved)
  | keep (key uri : String)
  | hang
deriving DecidableEq

/-- A call that raises replies `none`. -/
def Reply : Op → Type
  | .getModel _ => Option Record
  | .runOwned _ => Option Bool
  | .getRun _ | .bindInputs | .detectorLoaded _ | .plan _ | .probe _ |
    .warm _ | .load _ _ | .setStatus _ _ _ => Bool
  | .searchPage _ _ => Option (Page LoggedModel × Nat)
  | .readFlavors _ => Option (Option String)
  | .compatibility _ => Option Compatibility
  | .insert _ _ _ | .keep _ _ => Unit
  | .hang => Empty

inductive Choice where
  | answers (yes : Bool)
  | fails
  | fresh (modelId : String)
  /-- Why a load would run code of the author, if it would. -/
  | flavors (reason : Option String)
  | judges (compatibility : Compatibility)
deriving DecidableEq

def Store.setStatus (store : Store) (modelId : String) (status : Status)
    (judged : Option Judged) : Bool × Store :=
  match store.records modelId with
  | none => (false, store)
  | some record => (true, { store with
      records := Function.update store.records modelId
        (some { record with status, judged := judged.or record.judged }) })

def Store.keep (store : Store) (size : Nat) (key uri : String) : Store :=
  let cache := store.cache.filter (·.1 ≠ key) ++ [(key, uri)]
  { store with cache := cache.drop (cache.length - size) }

def Store.warm (store : Store) (key : String) : Bool × Store :=
  match store.cache.find? (·.1 = key) with
  | none => (false, store)
  | some entry => (true, { store with
      cache := store.cache.filter (·.1 ≠ key) ++ [entry] })

def Store.load (store : Store) (modelId : String) (resolved : Resolved) :
    Store :=
  { store with loads := store.loads ++
      ((store.records modelId).map (⟨·, resolved⟩)).toList }

def exec (store : Store) : (op : Op) → Choice → Option (Reply op × Store)
  | .getModel modelId, _ => some (store.records modelId, store)
  | .insert address detector status, .fresh modelId =>
      match store.records modelId with
      | some _ => none
      | none => some ((), { store with
          records := Function.update store.records modelId
            (some ⟨address, detector, status, none⟩) })
  | .insert _ _ _, _ => none
  | .setStatus modelId status judged, _ =>
      some (store.setStatus modelId status judged)
  | .runOwned _, .answers yes => some (some yes, store)
  | .runOwned _, _ => some (none, store)
  | .getRun _, .answers yes => some (yes, store)
  | .getRun _, _ => some (false, store)
  | .searchPage runId token, .answers _ => some (some
      (pageOf (ofRun store.logged runId) (settings.pageSize + 1) token,
        (store.firsts runId).length - 1), store)
  | .searchPage _ _, _ => some (none, store)
  | .readFlavors _, .flavors reason => some (some reason, store)
  | .readFlavors _, _ => some (none, store)
  | .compatibility _, .judges compatibility =>
      some (some compatibility, store)
  | .compatibility _, _ => some (none, store)
  | .bindInputs, .answers yes => some (yes, store)
  | .bindInputs, _ => some (false, store)
  | .detectorLoaded _, .answers yes => some (yes, store)
  | .detectorLoaded _, _ => some (false, store)
  | .plan _, .answers yes => some (yes, store)
  | .plan _, _ => some (false, store)
  | .probe _, .answers yes => some (yes, store)
  | .probe _, _ => some (false, store)
  | .warm key, _ => some (store.warm key)
  | .load modelId resolved, .answers yes =>
      some (yes, store.load modelId resolved)
  | .load modelId resolved, _ => some (false, store.load modelId resolved)
  | .keep key uri, _ => some ((), store.keep settings.cacheSize key uri)
  | .hang, _ => none

/-! ## Resolution -/

inductive Error where
  | http (status : Nat) (detail : String)
  | dead
deriving DecidableEq

abbrev Handler := Program Op Reply Error

/-- The URI that addresses a run without a logged model. -/
def legacyUri (runId : String) : String :=
  "runs:/" ++ runId ++ "/model"

def modelUri (modelId : String) : String :=
  "models:/" ++ modelId

/-- The first model of the run on a page; `more` is the search from the next
page on. -/
def onPage (runId : String) (page : Page LoggedModel) (seen : Nat)
    (more : Nat → Handler Resolved) : Handler Resolved :=
  match page.items.find? (·.sourceRunId = runId) with
  | some model => pure ⟨modelUri model.modelId, some seen⟩
  | none =>
      match page.next with
      | none => pure ⟨legacyUri runId, some seen⟩
      | some next => more next

/-- The pages of the search; one that raises leaves the legacy URI. -/
def searchFrom (runId : String) : Nat → Option Nat → Handler Resolved
  | 0, _ => .call Op.hang nofun
  | rounds + 1, token => do
      let answer ← Program.perform (Op.searchPage runId token)
      match answer with
      | none => pure ⟨legacyUri runId, none⟩
      | some (page, seen) =>
          let more := fun next => searchFrom runId rounds (some next)
          onPage runId page seen more

/-- `resolve_model_uri`; `raised` is what becomes of its `ValueError`. -/
def resolveModelUri (raised : Error) (runId : String) : Handler Resolved :=
  if isRunId runId = false then .fail raised
  else do
    let there ← Program.perform (Op.getRun runId)
    match there with
    | false => pure ⟨legacyUri runId, none⟩
    | true => searchFrom runId settings.rounds none

/-- `model_uri_for`. -/
def modelUriFor (raised : Error) (address : Address) : Handler Resolved :=
  match given? address.runId with
  | some runId => resolveModelUri settings raised runId
  | none =>
      match given? address.artifactUri with
      | some uri => pure ⟨uri, none⟩
      | none => .fail raised

/-! ## The gates -/

/-- `check_admissible`. -/
def checkAdmissible (status : Nat) (address : Address) : Handler Unit :=
  match checkAddress settings.deployment address with
  | some reason => .fail (.http status reason)
  | none =>
      match given? address.runId with
      | none => pure ()
      | some runId => do
          let owned ← Program.perform (Op.runOwned runId)
          match owned with
          | none => .fail (.http 503 "The tracking store did not answer")
          | some false => .fail (.http status
              "no run with this id exists in your tenant's experiments")
          | some true => pure ()

def manifestUnreadable : Error :=
  .http 503 "Could not read the model's manifest"

/-- `_refuse_author_code_or_reject`, and what it read. -/
def refuseAuthorCode (status : Nat) (address : Address) :
    Handler Resolved := do
  let resolved ← modelUriFor settings manifestUnreadable address
  let flavors ← Program.perform (Op.readFlavors resolved.uri)
  match flavors with
  | none => .fail manifestUnreadable
  | some (some reason) => .fail (.http status reason)
  | some none => pure resolved

/-- Of a verdict on what was read. -/
def servableOrReject (status : Nat) (resolved : Resolved)
    (verdict : Compatibility) : Handler (Option Resolved) :=
  if verdict.servable then pure (some resolved)
  else .fail (.http status
    "This serving environment cannot honour what the model declares")

/-- `_evaluate_or_reject`, and what it read; without an address nothing. -/
def evaluateOrReject (status : Nat) (address : Address) :
    Handler (Option Resolved) :=
  if given? address.runId = none ∧ given? address.artifactUri = none then
    pure none
  else do
    let resolved ← modelUriFor settings (.http 500 "not an MLflow run id")
      address
    let compatibility ← Program.perform (Op.compatibility resolved.uri)
    match compatibility with
    | none => .fail (.http 503
        "Could not read the model artifact's declared requirements")
    | some verdict => servableOrReject status resolved verdict

/-! ## Loading -/

/-- `cache_key` within a tenant. -/
def cacheKey (address : Address) : String :=
  match given? address.runId with
  | some runId => "kernel|" ++ runId
  | none => "uploaded|" ++ address.artifactUri.getD ""

def keep (key uri : String) : Handler Unit :=
  Program.perform (Op.keep key uri)

/-- What follows a cold load. -/
def keepLoaded (address : Address) (resolved : Resolved)
    (loaded : Bool) : Handler Unit :=
  if loaded then keep (cacheKey address) resolved.uri
  else .fail (.http 500 "the model does not load")

/-- `load_model_or_refuse`: warm, or the whole path of `load`. -/
def loadModel (modelId : String) (address : Address) : Handler Unit :=
  match checkAddress settings.deployment address with
  | some reason => .fail (.http 422 reason)
  | none => do
      let hit ← Program.perform (Op.warm (cacheKey address))
      match hit with
      | true => pure ()
      | false => do
          checkAdmissible settings 422 address
          let resolved ← modelUriFor settings
            (.http 500 "not an MLflow run id") address
          let loaded ← Program.perform (Op.load modelId resolved)
          keepLoaded address resolved loaded

/-- `detector_for`: the detector that the record names is loaded. -/
def detectorFor (status : Nat) (detector : Option String) : Handler Unit :=
  match given? detector with
  | none => .fail (.http status "This model records no detector")
  | some name => do
      let loaded ← Program.perform (Op.detectorLoaded name)
      match loaded with
      | true => pure ()
      | false => .fail (.http status "Unknown anomaly detector")

/-! ## The routes -/

/-- The insert of `create_model`; no status but those of the table is. -/
def createModel (request : ModelCreateRequest) : Handler Unit :=
  match Status.ofText? request.status with
  | none => .fail (.http 500 "Failed to create model")
  | some status =>
      Program.perform (Op.insert request.address request.detector status)

/-- `register_model`. -/
def registerModel (request : ModelCreateRequest) : Handler Unit :=
  if provenanceOf request.address = .uploaded ∧
      given? request.artifactUri = none then
    .fail (.http 422 "nothing can establish what it is")
  else do
    checkAdmissible settings 422 request.address
    let _ ← refuseAuthorCode settings 422 request.address
    let _ ← evaluateOrReject settings 422 request.address
    let bound ← Program.perform Op.bindInputs
    match bound with
    | true => createModel request
    | false => .fail (.http 422 "the registration is refused")

/-- What the gate loads: an upload in the probe, and another model where it has
a sample to score. -/
def loadAndScore (modelId : String) (address : Address) : Handler Unit :=
  match provenanceOf address with
  | .uploaded => do
      let passed ← Program.perform
        (Op.probe (address.artifactUri.getD ""))
      match passed with
      | true => pure ()
      | false => .fail (.http 409 "not shown to load and score")
  | .kernel => do
      let sample ← Program.perform (Op.plan modelId)
      match sample with
      | true => loadModel settings modelId address
      | false => pure ()

def successOrRaise (success : Bool) : Handler Unit :=
  if success then pure ()
  else .fail (.http 500 "Failed to update model status")

def updateStatus (modelId : String) (status : Status)
    (judged : Option Judged) : Handler Unit := do
  let success ← Program.perform (Op.setStatus modelId status judged)
  successOrRaise success

/-- The gate of a deployment into a serving status. -/
def deploymentGate (modelId : String) (record : Record) :
    Handler (Option Judged) := do
  checkAdmissible settings 409 record.address
  detectorFor 409 record.detector
  let authorCode ← refuseAuthorCode settings 409 record.address
  let compatibility ← evaluateOrReject settings 409 record.address
  loadAndScore settings modelId record.address
  pure (compatibility.map fun resolved => ⟨authorCode, resolved⟩)

/-- `deploy_model`. -/
def deployModel (modelId environment : String) : Handler Unit :=
  match validStatus? environment with
  | none => .fail (.http 400 "Invalid environment")
  | some status => do
      let row ← Program.perform (Op.getModel modelId)
      match row with
      | none => .fail (.http 404 "Model not found")
      | some record =>
          if status.Served then do
            let judged ← deploymentGate settings modelId record
            updateStatus modelId status judged
          else updateStatus modelId status none

/-- `delete_model`. -/
def deleteModel (modelId : String) : Handler Unit := do
  let row ← Program.perform (Op.getModel modelId)
  match row with
  | none => .fail (.http 404 "Model not found")
  | some _ => updateStatus modelId .deprecated none

/-- `predict` as far as the load. -/
def predict (modelId : String) : Handler Unit := do
  let row ← Program.perform (Op.getModel modelId)
  match row with
  | none => .fail (.http 404 "Model not found")
  | some record =>
      if record.status.Served then do
        detectorFor 422 record.detector
        loadModel settings modelId record.address
      else .fail (.http 400 "Only 'production' or 'active' models")

/-- `evaluate_drift` as far as the load, for a model with a sample. -/
def evaluateDrift (modelId : String) : Handler Unit := do
  let row ← Program.perform (Op.getModel modelId)
  match row with
  | none => .fail (.http 404 "Model not found")
  | some record => do
      let sample ← Program.perform (Op.plan modelId)
      match sample with
      | false => pure ()
      | true => do
          detectorFor 422 record.detector
          loadModel settings modelId record.address

/-! ## The service -/

inductive Request where
  | register (request : ModelCreateRequest)
  | deploy (modelId environment : String)
  | delete (modelId : String)
  | predict (modelId : String)
  | evaluateDrift (modelId : String)

def code : Request → Handler Unit
  | .register request => registerModel settings request
  | .deploy modelId environment => deployModel settings modelId environment
  | .delete modelId => deleteModel modelId
  | .predict modelId => predict settings modelId
  | .evaluateDrift modelId => evaluateDrift settings modelId

/-- What happens around the requests. -/
inductive Change where
  /-- A model is logged, at a place in the order of a search. -/
  | logs (model : LoggedModel) (place : Nat)
  | evicts (key : String)
deriving DecidableEq

def Store.log (store : Store) (model : LoggedModel) (place : Nat) : Store :=
  let logged := store.logged.insertIdx place model
  { store with
    logged
    firsts := fun runId =>
      if first logged runId = first store.logged runId then
        store.firsts runId
      else store.firsts runId ++ [first logged runId] }

def change (store : Store) : Change → Option Store
  | .logs model place =>
      if place ≤ store.logged.length then some (store.log model place)
      else none
  | .evicts key => some { store with
      cache := store.cache.filter (·.1 ≠ key) }

abbrev Service := Pool Store Request Op Reply Error Unit

abbrev Event := PoolEvent Request Choice Change

def service : Pool.System Store Request Op Reply Error Unit Choice
    Change where
  code := code settings
  dead := .dead
  exec := exec settings
  change := change

end IndustryFlow.Models.Serving
