import IndustryFlow.Words
import IndustryFlow.Fallible
import IndustryFlow.Tracking.Requests
import IndustryFlow.Tracking.Sources

/-!
# The metadata proxy

A tracking request is matched against the table of allowed routes, the ids
that the route's rules name are looked up at the tracking server, the tenant's
names are qualified, and the message is forwarded.  `Lookups` is the server as
far as the ownership lookups ask it; its answers do not change during a
request, so asking once or again is the same.
-/

namespace IndustryFlow.Tracking

open Tenancy

/-! ## Routes -/

inductive Rule where
  | experiment
  | run
  | runs
  | runOpt
  | loggedModel
  | loggedModelOpt
  | names
  | mvSource
  | createExperiment
  | filtered
deriving DecidableEq

structure Route where
  endpoint : String
  rules : List Rule
deriving DecidableEq

/-- `_r`. -/
def r (method : HttpMethod) (endpoint : String) (rules : List Rule) :
    HttpMethod × Route :=
  (method, ⟨endpoint, rules⟩)

/-- `ROUTES`. -/
def routes : List (HttpMethod × Route) := [
  r .post "experiments/create" [.createExperiment],
  r .get "experiments/get" [.experiment],
  r .get "experiments/get-by-name" [.names],
  r .get "experiments/search" [.filtered, .names],
  r .post "experiments/search" [.filtered, .names],
  r .post "experiments/update" [.experiment, .names],
  r .post "experiments/delete" [.experiment],
  r .post "experiments/restore" [.experiment],
  r .post "experiments/set-experiment-tag" [.experiment],
  r .post "experiments/delete-experiment-tag" [.experiment],
  r .post "runs/create" [.experiment],
  r .post "runs/search" [.experiment],
  r .get "runs/get" [.run],
  r .post "runs/update" [.run],
  r .post "runs/delete" [.run],
  r .post "runs/restore" [.run],
  r .post "runs/log-metric" [.run],
  r .post "runs/log-parameter" [.run],
  r .post "runs/log-batch" [.run],
  r .post "runs/log-inputs" [.run],
  r .post "runs/outputs" [.run],
  r .post "runs/log-model" [.run],
  r .post "runs/set-tag" [.run],
  r .post "runs/delete-tag" [.run],
  r .get "metrics/get-history" [.run],
  r .get "metrics/get-history-bulk-interval" [.runs],
  r .get "artifacts/list" [.run],
  r .post "logged-models" [.experiment, .runOpt],
  r .post "logged-models/search" [.experiment],
  r .get "logged-models/\x7bmodel_id\x7d" [.loggedModel],
  r .patch "logged-models/\x7bmodel_id\x7d" [.loggedModel],
  r .delete "logged-models/\x7bmodel_id\x7d" [.loggedModel],
  r .post "logged-models/\x7bmodel_id\x7d/params" [.loggedModel],
  r .patch "logged-models/\x7bmodel_id\x7d/tags" [.loggedModel],
  r .delete "logged-models/\x7bmodel_id\x7d/tags/\x7btag_key\x7d"
    [.loggedModel],
  r .get "logged-models/\x7bmodel_id\x7d/artifacts/directories"
    [.loggedModel],
  r .post "registered-models/create" [.names],
  r .get "registered-models/get" [.names],
  r .get "registered-models/search" [.filtered, .names],
  r .patch "registered-models/update" [.names],
  r .delete "registered-models/delete" [.names],
  r .post "registered-models/rename" [.names],
  r .post "registered-models/set-tag" [.names],
  r .delete "registered-models/delete-tag" [.names],
  r .get "registered-models/get-latest-versions" [.names],
  r .post "registered-models/get-latest-versions" [.names],
  r .post "registered-models/alias" [.names],
  r .delete "registered-models/alias" [.names],
  r .get "registered-models/alias" [.names],
  r .post "model-versions/create"
    [.names, .mvSource, .runOpt, .loggedModelOpt],
  r .get "model-versions/get" [.names],
  r .get "model-versions/search" [.filtered, .names],
  r .patch "model-versions/update" [.names],
  r .delete "model-versions/delete" [.names],
  r .post "model-versions/set-tag" [.names],
  r .delete "model-versions/delete-tag" [.names],
  r .post "model-versions/transition-stage" [.names],
  r .get "model-versions/get-download-uri" [.names]]

/-- A template segment that stands for any one segment. -/
def isParameter (segment : Text) : Bool :=
  segment.head? = some '\x7b'

/-- `_compile(template).match`, by segments; the pattern's end also matches
before a last newline. -/
def matchSegments : List Text → List Text → Bool
  | [last], [found] =>
      if isParameter last then !found.isEmpty
      else found = last || found = last ++ ['\n']
  | part :: parts, found :: rest =>
      (if isParameter part then !found.isEmpty else found = part) &&
        matchSegments parts rest
  | [], [] => true
  | _, _ => false

def Route.segments (route : Route) : List Text :=
  route.endpoint.toList.splitOn '/'

/-- The segments of an endpoint that stand for the template's parameters. -/
def Route.arguments (route : Route) (endpoint : Text) : List Text :=
  (route.segments.zip (endpoint.splitOn '/')).filterMap fun pair =>
    if isParameter pair.1 then some pair.2 else none

attribute [local instance] Words.lawful_list in
/-- `match`. -/
def matchRoute (method : HttpMethod) (endpoint : Text) :
    Option (Route × List Text) :=
  if (endpoint.splitOn '/').any (· ∈ [[], ['.'], ['.', '.']]) then none
  else
    match routes.find? fun entry =>
      entry.1 = method && entry.2.endpoint.toList = endpoint with
    | some (_, route) => some (route, [])
    | none =>
        let patterns := routes.filter fun entry =>
          '\x7b' ∈ entry.2.endpoint.toList
        (patterns.find? fun entry => entry.1 = method &&
          matchSegments entry.2.segments (endpoint.splitOn '/')).map
            fun entry => (entry.2, entry.2.arguments endpoint)

/-! ## Names -/

/-- The request fields of `NAME_FIELDS`, where there are any. -/
def nameFields : List (String × List String) := [
  ("experiments/create", ["name"]),
  ("experiments/get-by-name", ["experiment_name"]),
  ("experiments/update", ["new_name"]),
  ("registered-models/create", ["name"]),
  ("registered-models/get", ["name"]),
  ("registered-models/update", ["name"]),
  ("registered-models/delete", ["name"]),
  ("model-versions/create", ["name"]),
  ("model-versions/get", ["name"]),
  ("registered-models/rename", ["name", "new_name"]),
  ("registered-models/set-tag", ["name"]),
  ("registered-models/delete-tag", ["name"]),
  ("registered-models/get-latest-versions", ["name"]),
  ("registered-models/alias", ["name"]),
  ("model-versions/update", ["name"]),
  ("model-versions/delete", ["name"]),
  ("model-versions/set-tag", ["name"]),
  ("model-versions/delete-tag", ["name"]),
  ("model-versions/transition-stage", ["name"]),
  ("model-versions/get-download-uri", ["name"])]

/-- `request_name_fields`. -/
def requestNameFields (endpoint : Text) : List String :=
  match nameFields.find? (·.1.toList = endpoint) with
  | some entry => entry.2
  | none => []

/-- `qualify_name`, of the tenant. -/
def qualified (company : Company) (name : String) : String :=
  String.ofList (qualifyName (namePrefix company) name.toList)

/-- One field of `scope_request`. -/
def scopeField (company : Company) (message : Message) (field : String) :
    Message :=
  match message.lookup field with
  | some (.str name) =>
      Json.setItem message field (.str (qualified company name))
  | _ => message

/-- `scope_request`. -/
def scopeRequest (company : Company) (endpoint : Text) (message : Message) :
    Message :=
  (requestNameFields endpoint).foldl (scopeField company) message

/-- `experiment_artifact_location`. -/
def experimentArtifactLocation (company : Company) (nonce : Text) : String :=
  String.ofList
    (artifactScheme ++ [':', '/'] ++ artifactPrefix company ++ nonce)

/-! ## Ownership lookups -/

/-- How a request stops: by an answer, or by an exception nobody handles. -/
inductive Stop where
  | refused (refusal : Refusal)
  | raised
deriving DecidableEq

/-- The tenant, the tracking server's answers about an experiment, a run and a
logged model, each a status and its JSON, and `repr` of a container. -/
structure Lookups where
  company : Company
  experimentsGet : String → Nat × Json
  runsGet : String → Nat × Json
  loggedModelsGet : String → Nat × Json
  repr : Json → String

/-- `(value or {}).get(key)`. -/
def field (value : Json) (key : String) : Except Stop Json :=
  match value.orElse (.obj []) with
  | .obj fields => .ok (Json.get fields key)
  | _ => .error .raised

/-- `bool(name) and owns_name(company_id, name)`. -/
def ownsName (company : Company) : Json → Bool
  | .str name => name ≠ "" &&
      (ownedName (namePrefix company) name.toList).isSome
  | _ => false

def unknownExperiment : Stop :=
  .refused ⟨403, "cross-tenant or unknown experiment"⟩

/-- The name in an answer about an experiment. -/
def experimentName (answer : Nat × Json) : Except Stop Json :=
  if answer.1 = 200 then do
    let found ← field answer.2 "experiment"
    field found "name"
  else pure .null

/-- The experiment in an answer about a run or a logged model. -/
def entityExperiment (answer : Nat × Json) (key : String) :
    Except Stop Json :=
  if answer.1 = 200 then do
    let found ← field answer.2 key
    let info ← field found "info"
    field info "experiment_id"
  else pure .null

namespace Lookups

/-- `_Lookups.experiment`. -/
def experiment (lookups : Lookups) (id : Json) : Except Stop Unit := do
  if id.truthy = false then throw unknownExperiment
  let name ← experimentName
    (lookups.experimentsGet (id.pyStr lookups.repr))
  if ownsName lookups.company name then pure () else throw unknownExperiment

/-- `_Lookups._owned`. -/
def owned (lookups : Lookups) (id : Json) : Except Stop Bool :=
  match lookups.experiment id with
  | .ok _ => .ok true
  | .error (.refused _) => .ok false
  | .error .raised => .error .raised

/-- The end of `run` and of `logged_model`, with the answer of the lookup. -/
def entity (lookups : Lookups) (answer : Nat × Json) (key : String) :
    Except Stop Unit := do
  let id ← entityExperiment answer key
  if ← lookups.owned id then pure () else throw unknownExperiment

/-- `_Lookups.run`. -/
def run (lookups : Lookups) (id : Json) : Except Stop Unit :=
  lookups.entity (lookups.runsGet (id.pyStr lookups.repr)) "run"

/-- `_Lookups.logged_model`. -/
def loggedModel (lookups : Lookups) (id : Json) : Except Stop Unit := do
  if id.truthy = false then
    throw (.refused ⟨403, "cross-tenant or unknown logged model"⟩)
  lookups.entity (lookups.loggedModelsGet (id.pyStr lookups.repr)) "model"

end Lookups

/-- `_as_list`. -/
def asList : Json → List Json
  | .null => []
  | .arr items => items
  | value => [value]

/-- A check of each, in turn. -/
def checkAll (check : Json → Except Stop Unit) : List Json → Except Stop Unit
  | [] => pure ()
  | id :: ids => do
      check id
      checkAll check ids

def experimentIds (src : Message) : List Json :=
  asList (Json.get src "experiment_id") ++
    asList (Json.get src "experiment_ids")

def runIds (src : Message) : List Json :=
  [Json.get src "run_id", Json.get src "run_uuid",
    Json.get src "source_run_id"].filter Json.truthy

/-- The ids, of which there must be one. -/
def required (missing : String) (check : Json → Except Stop Unit)
    (ids : List Json) : Except Stop Unit := do
  if ids.isEmpty then throw (.refused ⟨403, missing⟩)
  checkAll check ids

/-- The `mv_source` rule. -/
def checkSource (lookups : Lookups) (source : Json) : Except Stop Unit :=
  match source.orElse (.str "") with
  | .str text =>
      match sourceKind text.toList with
      | .run id => lookups.run (.str (String.ofList id))
      | .loggedModel id => lookups.loggedModel (.str (String.ofList id))
      | .artifact key =>
          if ownsKey (artifactPrefix lookups.company) key true then pure ()
          else throw (.refused
            ⟨403, "model version source is outside the tenant"⟩)
      | .refused reason => throw (.refused ⟨403, reason⟩)
  | _ => .error .raised

/-- `_ensure_owns`. -/
def ensureOwns (lookups : Lookups) (rules : List Rule)
    (pathArgs : List Text) (src : Message) : Except Stop Unit := do
  if .experiment ∈ rules then
    required "an experiment id is required" lookups.experiment
      (experimentIds src)
  if .run ∈ rules ∨ (.runOpt ∈ rules ∧ runIds src ≠ []) then
    required "a run id is required" lookups.run (runIds src)
  if .runs ∈ rules then
    required "run ids are required" lookups.run
      (asList (Json.get src "run_ids"))
  if .loggedModel ∈ rules then
    lookups.loggedModel (match pathArgs with
      | id :: _ => .str (String.ofList id)
      | [] => Json.get src "model_id")
  if .loggedModelOpt ∈ rules ∧ (Json.get src "model_id").truthy = true then
    lookups.loggedModel (Json.get src "model_id")
  if .mvSource ∈ rules then
    checkSource lookups (Json.get src "source")

/-! ## Proxying -/

/-- The call that is made of the tracking server: its message is the query of
a GET and the body of any other method. -/
structure Forwarded where
  method : HttpMethod
  endpoint : Text
  message : Message

def isText : Json → Bool
  | .str _ => true
  | _ => false

/-- The part of `proxy` after the message is read; `nonce` is the new name that
`uuid4` gives. -/
def forwardMessage (company : Company) (method : HttpMethod)
    (endpoint nonce : Text) (message : Message) : Forwarded :=
  let named := scopeRequest company endpoint message
  { method, endpoint
    message := if endpoint = "experiments/create".toList then
        Json.setItem named "artifact_location"
          (.str (experimentArtifactLocation company nonce))
      else named }

def liftRefusal {Answer : Type} : Except Refusal Answer → Except Stop Answer
  | .ok answer => .ok answer
  | .error refusal => .error (.refused refusal)

/-- `proxy`, up to the call it makes of the tracking server. -/
def proxy (lookups : Lookups) (method : HttpMethod) (endpoint : Text)
    (query : List (String × String)) (body : Body) (nonce : Text) :
    Except Stop Forwarded := do
  match matchRoute method endpoint with
  | none => throw (.refused
      ⟨403, "this tracking route is not available through the gateway"⟩)
  | some (route, pathArgs) => do
      let message ← liftRefusal (requestMessage method query body)
      if (requestNameFields endpoint).any fun name =>
          name ∈ message.map Prod.fst && !isText (Json.get message name) then
        throw (.refused ⟨400, "a name field must be a single string"⟩)
      ensureOwns lookups route.rules pathArgs message
      pure (forwardMessage lookups.company method endpoint nonce message)

end IndustryFlow.Tracking
