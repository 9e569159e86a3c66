import IndustryFlow.Fallible

/-!
# The model registry of a tenant

Registration, promotion, deployment and deletion of models, with every check
of the two gates.  What the checks ask of others (the tracking store, the
artifact store, the detectors that are loaded, the load probe) is the `World`
of the request.  Model versions are the integers the table keeps.  The feature
sample and its baseline decide nothing here but whether a deployment loads the
model, so that is all that is kept of them.
-/

namespace IndustryFlow.Models

/-! ## The world of a request -/

inductive Verdict where
  | compatible
  | patchDrift
  | incompatible
deriving DecidableEq

structure Compatibility where
  status : Verdict
  reasons : List String
  flavor : Option String
deriving DecidableEq

def Compatibility.servable (compatibility : Compatibility) : Bool :=
  compatibility.status ≠ .incompatible

/-- A loaded detector and what it declares. -/
structure Detector where
  name : String
  semantics : Option String
  handlesFlavors : List String
deriving DecidableEq

structure ProbeResult where
  ok : Bool
  stage : String
  error : String
deriving DecidableEq

/-- What loading a model in the serving process comes to. -/
inductive Load where
  | loaded
  /-- Refused with this status of an answer. -/
  | refused (status : Nat)
  | failed (error : String)
deriving DecidableEq

/-- A sample to score at the deployment, or why there is nothing to score. -/
structure Plan where
  reason : Option String
deriving DecidableEq

/-- Where a model is: its run and its artifact. -/
structure Address where
  runId : Option String
  artifactUri : Option String
deriving DecidableEq

/-- What the others answer while a request is handled. -/
structure World where
  /-- The run is in the tenant's experiments; `none` without an answer. -/
  runOwned : String → Option Bool
  /-- Why loading runs code of the author; `none` when the manifest cannot be
  read. -/
  authorCode : Address → Option (Option String)
  compatibility : Address → Option Compatibility
  detectors : List Detector
  sensorIds : String → String → Option String
  plan : String → Option Plan
  load : Address → Load
  probe : String → ProbeResult
  /-- The insert fails for a reason of its own. -/
  insertFails : Bool
  newId : String

/-- The bucket of admitted uploads, the tenant's prefix in it, if its company
id is valid, and the score semantics there are. -/
structure Deployment where
  bucket : String
  artifactPrefix : Option String
  semantics : List String

/-! ## The registry -/

inductive Status where
  | training
  | active
  | production
  | deprecated
  | failed
deriving DecidableEq

namespace Status

def all : List Status :=
  [training, active, production, deprecated, failed]

def text : Status → String
  | training => "training"
  | active => "active"
  | production => "production"
  | deprecated => "deprecated"
  | failed => "failed"

/-- The values of the `CHECK` on the column. -/
def ofText? (text : String) : Option Status :=
  all.find? (·.text = text)

/-- `/predict` scores models of this status. -/
def Served (status : Status) : Prop :=
  status = production ∨ status = active

instance (status : Status) : Decidable status.Served :=
  inferInstanceAs (Decidable (_ ∨ _))

end Status

inductive Provenance where
  | kernel
  | uploaded
deriving DecidableEq

/-- Which request gave a model its status; not read by the code. -/
inductive Origin where
  | registration
  | deployment (world : World)
  | deletion

structure Model where
  modelId : String
  modelName : String
  modelVersion : Int
  status : Status
  address : Address
  provenance : Provenance
  detector : Option String
  featureConfigId : Option String
  equipmentId : Option String
  sensorIds : Option (List String)
  compatibility : Option Verdict
  origin : Origin

/-- The feature configurations with their base sensors, and the models. -/
structure Db where
  featureConfigs : List (String × List String)
  models : List Model

namespace Db

def model? (db : Db) (modelId : String) : Option Model :=
  db.models.find? (·.modelId = modelId)

/-- An update of the row with this id. -/
def update (db : Db) (modelId : String) (change : Model → Model) : Db :=
  { db with models := db.models.map fun model =>
      if model.modelId = modelId then change model else model }

end Db

/-- The answers that refuse a request. -/
inductive Refusal where
  | noArtifact
  | notAdmissible (status : Nat) (reason : String)
  | ownershipUnknown
  | manifestUnreadable
  | authorCode (status : Nat) (reason : String)
  | requirementsUnreadable
  | incompatible (status : Nat) (reasons : List String)
  | semanticsRefused (reason : String)
  | detectorElsewhere (detector : String) (detectors : List String)
  | detectorNotLoaded (detector : String) (detectors : List String)
  | flavorNotScored (detector flavor : String) (flavors : List String)
  | featureConfigMissing (id : String)
  | sensorsMissing (equipment : String) (sensors : List String)
  | alreadyRegistered (name : String) (version : Int)
  | notCreated
  | invalidEnvironment (environment : String)
  | modelNotFound
  | noDetector (detector : Option String)
  | probeRefused (stage error : String)
  | doesNotLoad
  | ownershipUnknownAtLoad
  | promotion (status : Nat)

def Refusal.status : Refusal → Nat
  | .noArtifact => 422
  | .notAdmissible status _ => status
  | .ownershipUnknown => 503
  | .manifestUnreadable => 503
  | .authorCode status _ => status
  | .requirementsUnreadable => 503
  | .incompatible status _ => status
  | .semanticsRefused _ => 422
  | .detectorElsewhere _ _ => 422
  | .detectorNotLoaded _ _ => 422
  | .flavorNotScored _ _ _ => 422
  | .featureConfigMissing _ => 422
  | .sensorsMissing _ _ => 422
  | .alreadyRegistered _ _ => 409
  | .notCreated => 500
  | .invalidEnvironment _ => 400
  | .modelNotFound => 404
  | .noDetector _ => 409
  | .probeRefused _ _ => 409
  | .doesNotLoad => 409
  | .ownershipUnknownAtLoad => 503
  | .promotion status => status

/-! ## The address -/

def isIdChar (char : Char) : Bool :=
  char.isAlphanum || char = '_' || char = '-'

/-- `is_run_id`; the pattern lets one line break through at the end. -/
def isRunId (runId : String) : Bool :=
  let body := if runId.toList.getLast? = some '\n'
    then runId.toList.dropLast else runId.toList
  1 ≤ body.length && body.length ≤ 64 && body.all isIdChar

/-- The id of an upload, with at most one slash after it. -/
def isUpload (rest : List Char) : Bool :=
  let body := if rest.getLast? = some '/' then rest.dropLast else rest
  16 ≤ body.length && body.length ≤ 64 && body.all isIdChar

/-- `admitted_artifact_refusal`. -/
def admittedArtifactRefusal (deployment : Deployment)
    (artifactUri : Option String) : Option String :=
  match given? artifactUri with
  | none => some ("an uploaded model must carry the artifact location " ++
      "the upload gateway returned")
  | some uri =>
      if deployment.bucket = "" then
        some ("this deployment does not name the bucket uploads are " ++
          "admitted into, so no artifact location can be shown to be an " ++
          "admitted upload")
      else match deployment.artifactPrefix with
      | none => some "the caller's tenant is not a valid company id"
      | some tenant =>
          let root := "s3://" ++ deployment.bucket ++ "/" ++ tenant ++
            "uploads/"
          if root.toList.isPrefixOf uri.toList &&
              isUpload (uri.toList.drop root.toList.length) then none
          else some ("the artifact location is not an upload this tenant's " ++
            "gateway admitted. Register the `artifact_uri` the upload commit " ++
            "returned (" ++ root ++ "<upload>); nothing else is accepted, " ++
            "because nothing else was judged (ADR-0030 dec 4).")

/-- `check_address`: why the address is refused. -/
def checkAddress (deployment : Deployment) (address : Address) :
    Option String :=
  match given? address.runId, given? address.artifactUri with
  | some _, some _ => some ("a model is addressed by the run it was " ++
      "logged in or by the artifact it was uploaded as, never both")
  | some runId, none =>
      if isRunId runId then none
      else some "the run id is not an MLflow run id"
  | none, _ => admittedArtifactRefusal deployment address.artifactUri

/-- `_admit_address_or_refuse`. -/
def admitAddressOrRefuse (deployment : Deployment) (world : World)
    (address : Address) (onRefused : Nat) : Except Refusal Unit :=
  match checkAddress deployment address with
  | some reason => .error (.notAdmissible onRefused reason)
  | none =>
      match given? address.runId with
      | none => .ok ()
      | some runId =>
          match world.runOwned runId with
          | none => .error .ownershipUnknown
          | some false => .error (.notAdmissible onRefused
              "no run with this id exists in your tenant's experiments")
          | some true => .ok ()

/-! ## The gates -/

/-- `provenance_of`. -/
def provenanceOf (address : Address) : Provenance :=
  if (given? address.runId).isSome then .kernel else .uploaded

/-- `_refuse_author_code_or_reject`. -/
def refuseAuthorCodeOrReject (world : World) (address : Address)
    (onRefused : Nat) : Except Refusal Unit :=
  match world.authorCode address with
  | none => .error .manifestUnreadable
  | some (some reason) => .error (.authorCode onRefused reason)
  | some none => .ok ()

/-- `_evaluate_or_reject`. -/
def evaluateOrReject (world : World) (address : Address)
    (onIncompatible : Nat) : Except Refusal (Option Compatibility) :=
  if given? address.runId = none ∧ given? address.artifactUri = none then
    .ok none
  else match world.compatibility address with
  | none => .error .requirementsUnreadable
  | some compatibility =>
      if compatibility.servable then .ok (some compatibility)
      else .error (.incompatible onIncompatible compatibility.reasons)

/-- `detectors_for`. -/
def detectorsFor (world : World) (semantics flavor : String) :
    List String :=
  (world.detectors.filter fun detector =>
    detector.semantics = some semantics ∧
      flavor ∈ detector.handlesFlavors).map Detector.name

/-- `judge_semantics`: the detector of an uploaded model. -/
def judgeSemantics (deployment : Deployment) (world : World)
    (declared flavor : Option String) : Except Refusal String :=
  match given? declared with
  | none => .error (.semanticsRefused
      "this model does not declare what its output means")
  | some semantics =>
      if semantics ∉ deployment.semantics then
        .error (.semanticsRefused
          "this is not a score semantics this platform knows")
      else match given? flavor with
      | none => .error (.semanticsRefused
          "this artifact does not declare a flavor")
      | some flavor =>
          match (detectorsFor world semantics flavor).mergeSort
              fun first second => decide (first ≤ second) with
          | [] => .error (.semanticsRefused
              "nothing in this deployment can score such a model")
          | detector :: _ => .ok detector

/-- `_kernel_detector_or_refuse`. -/
def kernelDetectorOrRefuse (world : World) (named flavor : Option String) :
    Except Refusal String :=
  let name := (given? named).getD "sklearn"
  match world.detectors.find? (·.name = name) with
  | none => .error (.detectorNotLoaded name
      (world.detectors.map Detector.name))
  | some detector =>
      match given? flavor with
      | none => .ok name
      | some flavor =>
          if detector.handlesFlavors = [] ∨
              flavor ∈ detector.handlesFlavors then .ok name
          else .error (.flavorNotScored name flavor detector.handlesFlavors)

/-! ## Registration -/

/-- The fields of `ModelCreateRequest` that the gate and the insert use. -/
structure ModelCreateRequest where
  modelName : String
  modelVersion : Int
  mlflowRunId : Option String
  artifactUri : Option String
  scoreSemantics : Option String
  detector : Option String
  status : String
  featureConfigId : Option String
  equipmentId : Option String
  sensorIds : Option (List String)

def ModelCreateRequest.address (request : ModelCreateRequest) : Address :=
  ⟨request.mlflowRunId, request.artifactUri⟩

/-- The detector that is to score the model. -/
def chooseDetector (deployment : Deployment) (world : World)
    (request : ModelCreateRequest) (flavor : Option String) :
    Except Refusal String :=
  match provenanceOf request.address with
  | .kernel => kernelDetectorOrRefuse world request.detector flavor
  | .uploaded => do
      let detector ← judgeSemantics deployment world
        request.scoreSemantics flavor
      match given? request.detector with
      | none => pure detector
      | some named =>
          let matching := detectorsFor world
            (request.scoreSemantics.getD "") (flavor.getD "")
          if named ∈ matching then pure named
          else throw (.detectorElsewhere named matching)

/-- `_bind_inputs_and_baseline`: the sensors the model reads. -/
def bindInputs (db : Db) (world : World) (request : ModelCreateRequest) :
    Except Refusal (Option (List String)) :=
  match given? request.featureConfigId with
  | none => .ok request.sensorIds
  | some id =>
      match db.featureConfigs.lookup id with
      | none => .error (.featureConfigMissing id)
      | some baseSensors =>
          match given? request.equipmentId with
          | none => .ok request.sensorIds
          | some equipment =>
              if request.sensorIds.getD [] ≠ [] then .ok request.sensorIds
              else
                let missing := baseSensors.filter fun sensor =>
                  (world.sensorIds equipment sensor).isNone
                if missing ≠ [] then
                  .error (.sensorsMissing equipment missing)
                else .ok (some (baseSensors.filterMap
                  (world.sensorIds equipment)))

/-- The table has no model of this id, and none of this name and version. -/
def Db.Fresh (db : Db) (world : World) (request : ModelCreateRequest) :
    Prop :=
  ∀ model ∈ db.models, model.modelId ≠ world.newId ∧
    ¬(model.modelName = request.modelName ∧
      model.modelVersion = request.modelVersion)

instance (db : Db) (world : World) (request : ModelCreateRequest) :
    Decidable (db.Fresh world request) :=
  inferInstanceAs (Decidable (∀ _ ∈ _, _))

/-- The insert of `create_model`. -/
def insert (db : Db) (world : World) (request : ModelCreateRequest)
    (detector : String) (sensorIds : Option (List String))
    (compatibility : Option Compatibility) : Except Refusal Db :=
  match Status.ofText? request.status with
  | none => .error .notCreated
  | some status =>
      if world.insertFails then .error .notCreated
      else if db.Fresh world request then
        .ok { db with models := db.models ++ [{
          modelId := world.newId
          modelName := request.modelName
          modelVersion := request.modelVersion
          status
          address := request.address
          provenance := provenanceOf request.address
          detector := some detector
          featureConfigId := request.featureConfigId
          equipmentId := request.equipmentId
          sensorIds
          compatibility := compatibility.map Compatibility.status
          origin := .registration }] }
      else
        .error (.alreadyRegistered request.modelName request.modelVersion)

/-- What the checks of a registration settle for its insert. -/
structure Judged where
  compatibility : Option Compatibility
  detector : String
  sensorIds : Option (List String)

/-- The checks of `register_model`. -/
def registrationGate (deployment : Deployment) (world : World) (db : Db)
    (request : ModelCreateRequest) : Except Refusal Judged := do
  if provenanceOf request.address = .uploaded ∧
      given? request.artifactUri = none then throw .noArtifact
  admitAddressOrRefuse deployment world request.address 422
  refuseAuthorCodeOrReject world request.address 422
  let compatibility ← evaluateOrReject world request.address 422
  let detector ← chooseDetector deployment world request
    (compatibility.bind Compatibility.flavor)
  let sensorIds ← bindInputs db world request
  pure { compatibility, detector, sensorIds }

/-- `register_model`. -/
def registerModel (deployment : Deployment) (world : World) (db : Db)
    (request : ModelCreateRequest) : Except Refusal Db := do
  let judged ← registrationGate deployment world db request
  insert db world request judged.detector judged.sensorIds
    judged.compatibility

/-- What a promotion reads of the version: its run, if it has one. -/
structure Promotion where
  name : String
  version : Nat
  featureConfigId : String
  equipmentId : Option String
  detector : Option String
  /-- The version's run; the refusal when it cannot be read. -/
  found : Except Nat (Option String)

/-- `promote_model_version`: the registration request it makes. -/
def Promotion.request (promotion : Promotion) :
    Except Refusal ModelCreateRequest :=
  match promotion.found with
  | .error status => .error (.promotion status)
  | .ok run =>
      match given? run with
      | none => .error (.promotion 422)
      | some run => .ok {
          modelName := promotion.name
          modelVersion := promotion.version
          mlflowRunId := some run
          artifactUri := none
          scoreSemantics := none
          detector := promotion.detector
          status := "training"
          featureConfigId := some promotion.featureConfigId
          equipmentId := promotion.equipmentId
          sensorIds := none }

/-! ## Deployment -/

/-- The load-and-score part of the deployment gate. -/
def loadAndScore (world : World) (model : Model) : Except Refusal Unit :=
  match provenanceOf model.address with
  | .uploaded =>
      let result := world.probe (model.address.artifactUri.getD "")
      if result.ok then .ok ()
      else .error (.probeRefused result.stage result.error)
  | .kernel =>
      match world.plan model.modelId with
      | none => .ok ()
      | some plan =>
          if plan.reason.isSome then .ok ()
          else match world.load model.address with
          | .loaded => .ok ()
          | .refused status =>
              if status = 503 then .error .ownershipUnknownAtLoad
              else .error .doesNotLoad
          | .failed _ => .error .doesNotLoad

/-- The detector the model names is loaded. -/
def detectorOrRefuse (world : World) (model : Model) : Except Refusal Unit :=
  match given? model.detector with
  | none => .error (.noDetector model.detector)
  | some name =>
      if ∃ detector ∈ world.detectors, detector.name = name then .ok ()
      else .error (.noDetector model.detector)

/-- The gate of a deployment that puts the model in a serving path. -/
def deploymentGate (deployment : Deployment) (world : World)
    (model : Model) : Except Refusal (Option Compatibility) := do
  admitAddressOrRefuse deployment world model.address 409
  detectorOrRefuse world model
  refuseAuthorCodeOrReject world model.address 409
  let compatibility ← evaluateOrReject world model.address 409
  loadAndScore world model
  pure compatibility

/-- The states a deployment may ask for. -/
def validStatus? (environment : String) : Option Status :=
  [Status.production, .active, .deprecated].find? (·.text = environment)

/-- `deploy_model`.  The verdict is recorded before the probe runs, also when
the probe then refuses. -/
def deployModel (deployment : Deployment) (world : World) (db : Db)
    (modelId environment : String) : Except Refusal Unit × Db :=
  match validStatus? environment with
  | none => (.error (.invalidEnvironment environment), db)
  | some status =>
      match db.model? modelId with
      | none => (.error .modelNotFound, db)
      | some model =>
          if status.Served then
            match deploymentGate deployment world model with
            | .error refusal => (.error refusal, db.update modelId fun model =>
                { model with
                  compatibility :=
                    (recorded refusal).or model.compatibility })
            | .ok compatibility => (.ok (), db.update modelId fun model =>
                { model with
                  compatibility :=
                    (compatibility.map Compatibility.status).or
                      model.compatibility
                  status
                  origin := .deployment world })
          else (.ok (), db.update modelId fun model =>
            { model with status, origin := .deployment world })
where
  recorded (refusal : Refusal) : Option Verdict :=
    match refusal with
    | .probeRefused _ _ | .doesNotLoad | .ownershipUnknownAtLoad =>
        match db.model? modelId with
        | none => none
        | some model => (world.compatibility model.address).map
            Compatibility.status
    | _ => none

/-- `delete_model`. -/
def deleteModel (db : Db) (modelId : String) : Except Refusal Unit × Db :=
  match db.model? modelId with
  | none => (.error .modelNotFound, db)
  | some _ => (.ok (), db.update modelId fun model =>
      { model with status := .deprecated, origin := .deletion })

/-! ## Requests -/

inductive Request where
  | register (request : ModelCreateRequest)
  | promote (promotion : Promotion)
  | deploy (modelId environment : String)
  | delete (modelId : String)

/-- The registry after a registration, which leaves it as it was when it is
refused. -/
def registered (deployment : Deployment) (world : World) (db : Db)
    (request : ModelCreateRequest) : Except Refusal Unit × Db :=
  match registerModel deployment world db request with
  | .ok next => (.ok (), next)
  | .error refusal => (.error refusal, db)

def serve (deployment : Deployment) (world : World) (db : Db) :
    Request → Except Refusal Unit × Db
  | .register request => registered deployment world db request
  | .promote promotion =>
      match promotion.request with
      | .error refusal => (.error refusal, db)
      | .ok request => registered deployment world db request
  | .deploy modelId environment =>
      deployModel deployment world db modelId environment
  | .delete modelId => deleteModel db modelId

/-- The registry after the requests, each in its own world. -/
def after (deployment : Deployment) (db : Db)
    (requests : List (World × Request)) : Db :=
  requests.foldl (fun db request =>
    (serve deployment request.1 db request.2).2) db

end IndustryFlow.Models
