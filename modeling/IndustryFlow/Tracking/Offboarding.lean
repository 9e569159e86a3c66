import IndustryFlow.Words
import IndustryFlow.Concurrent.Loops
import IndustryFlow.Concurrent.Solo
import IndustryFlow.Tracking.Uploads

/-!
# Emptying a tenant from the tracking store

The tracking server keeps experiments with their runs and logged models, and
registered models; the object store keeps the keys of artifacts and staged
uploads.  A call empties one tenant out of both, over searches that answer in
pages and whose pattern reads `_` as any character.  It may be cut off after
any of its calls; what the other tenants do meanwhile leaves what its searches
find as it is.
-/

namespace IndustryFlow.Tracking.Offboarding

open Concurrent Tenancy

/-! ## The tracking server and the object store -/

inductive Stage where
  | active
  | deleted
deriving DecidableEq

structure Experiment where
  id : String
  name : Text
  stage : Stage
deriving DecidableEq

/-- A run or a logged model of an experiment. -/
structure Entry where
  id : String
  experiment : String
  stage : Stage
deriving DecidableEq

/-- The row under a key changes. -/
def amendAt {Row : Type} (key : Row → String) (id : String)
    (change : Row → Row) (rows : List Row) : List Row :=
  rows.map fun row => if key row = id then change row else row

theorem amendAt_keys {Row : Type} {key : Row → String} {change : Row → Row}
    (keeps : ∀ row, key (change row) = key row) (id : String)
    (rows : List Row) :
    (amendAt key id change rows).map key = rows.map key := by
  rw [amendAt, List.map_map]
  apply List.map_congr_left
  intro row _
  rw [Function.comp_apply]
  split
  · exact keeps row
  · rfl

theorem amendAt_nodup {Row : Type} {key : Row → String}
    {change : Row → Row} (keeps : ∀ row, key (change row) = key row)
    {id : String} {rows : List Row} (nodup : (rows.map key).Nodup) :
    ((amendAt key id change rows).map key).Nodup := by
  rw [amendAt_keys keeps]
  exact nodup

structure Store where
  experiments : List Experiment
  runs : List Entry
  loggedModels : List Entry
  /-- The names of the registered models. -/
  registered : List Text
  /-- The keys of the object store. -/
  objects : List Text
  experimentIds : (experiments.map Experiment.id).Nodup
  loggedModelIds : (loggedModels.map Entry.id).Nodup
deriving DecidableEq

namespace Store

def findExperiment (store : Store) (id : String) : Option Experiment :=
  store.experiments.find? (·.id = id)

def amendExperiment (store : Store) (id : String)
    (change : Experiment → Experiment)
    (keeps : ∀ experiment, (change experiment).id = experiment.id) : Store :=
  { store with
    experiments := amendAt Experiment.id id change store.experiments
    experimentIds := amendAt_nodup keeps store.experimentIds }

/-- The stage of an experiment is that of its runs. -/
def setStage (store : Store) (id : String) (stage : Stage) : Store :=
  { store.amendExperiment id ({ · with stage }) fun _ => rfl with
    runs := amendAt Entry.experiment id ({ · with stage }) store.runs }

def rename (store : Store) (id : String) (name : Text) : Store :=
  store.amendExperiment id ({ · with name }) fun _ => rfl

def deleteLogged (store : Store) (id : String) : Store :=
  { store with
    loggedModels := amendAt Entry.id id ({ · with stage := .deleted })
      store.loggedModels
    loggedModelIds := amendAt_nodup (fun _ => by rfl) store.loggedModelIds }

def deleteRegistered (store : Store) (name : Text) : Store :=
  { store with registered := store.registered.filter (· ≠ name) }

def deleteObject (store : Store) (key : Text) : Store :=
  { store with objects := store.objects.filter (· ≠ key) }

end Store

/-- `name LIKE pattern`. -/
def like : Text → Text → Bool
  | [], name => name.isEmpty
  | '%' :: pattern, name => name.tails.any (like pattern)
  | '_' :: pattern, _ :: name => like pattern name
  | char :: pattern, other :: name => char == other && like pattern name
  | _ :: _, [] => false

/-! ## Calls -/

inductive Op where
  | searchExperiments (pattern : Text) (size : Nat) (token : Option Nat)
  | restoreExperiment (id : String)
  | updateExperiment (id : String) (newName : Text)
  | deleteExperiment (id : String)
  | searchRegistered (pattern : Text) (size : Nat) (token : Option Nat)
  | deleteRegistered (name : Text)
  | searchLogged (experiment : String) (size : Nat) (token : Option Nat)
  | deleteLogged (id : String)
  | listKeys (root : Text)
  | deleteKey (key : Text)
  /-- A search whose pages do not come to an end. -/
  | hang
deriving DecidableEq

/-- What the tracking server answers: its data, or another status than 200. -/
inductive Response (Data : Type) where
  | ok (data : Data)
  | status (code : Nat)
deriving DecidableEq

/-- A call of the object store that raises replies `none`. -/
abbrev Reply : Op → Type
  | .searchExperiments .. => Response (Page Experiment)
  | .restoreExperiment _ => Response Unit
  | .updateExperiment .. => Response Unit
  | .deleteExperiment _ => Response Unit
  | .searchRegistered .. => Response (Page Text)
  | .deleteRegistered _ => Response Unit
  | .searchLogged .. => Response (Page Entry)
  | .deleteLogged _ => Response Unit
  | .listKeys _ => Option (List Text)
  | .deleteKey _ => Option Unit
  | .hang => Empty

inductive Choice where
  | succeeds
  /-- The tracking server answers with an error of its own, or the object
  store raises. -/
  | fails (code : Nat)
deriving DecidableEq

namespace Store

def matching (store : Store) (pattern : Text) : List Experiment :=
  store.experiments.filter fun experiment => like pattern experiment.name

/-- The logged models of an experiment that are not deleted. -/
def activeLogged (store : Store) (experiment : String) : List Entry :=
  store.loggedModels.filter fun model =>
    model.experiment = experiment && model.stage = .active

def keysUnder (store : Store) (root : Text) : List Text :=
  store.objects.filter root.isPrefixOf

end Store

def notFound : Nat := 404

def badRequest : Nat := 400

attribute [local instance] Words.lawful_list in
/-- What a call does where it is carried out. -/
def serve (store : Store) : (op : Op) → Option (Reply op × Store)
  | .searchExperiments pattern size token =>
      some (.ok (pageOf (store.matching pattern) size token), store)
  | .restoreExperiment id =>
      match store.findExperiment id with
      | some ⟨_, _, .deleted⟩ => some (.ok (), store.setStage id .active)
      | _ => some (.status notFound, store)
  | .updateExperiment id newName =>
      match store.findExperiment id with
      | some ⟨_, _, .active⟩ =>
          if store.experiments.any fun other =>
              other.name = newName && other.id ≠ id then
            some (.status badRequest, store)
          else some (.ok (), store.rename id newName)
      | some ⟨_, _, .deleted⟩ => some (.status badRequest, store)
      | none => some (.status notFound, store)
  | .deleteExperiment id =>
      match store.findExperiment id with
      | some ⟨_, _, .active⟩ => some (.ok (), store.setStage id .deleted)
      | _ => some (.status notFound, store)
  | .searchRegistered pattern size token =>
      some (.ok (pageOf (store.registered.filter (like pattern)) size token),
        store)
  | .deleteRegistered name =>
      if name ∈ store.registered then
        some (.ok (), store.deleteRegistered name)
      else some (.status notFound, store)
  | .searchLogged experiment size token =>
      some (.ok (pageOf (store.activeLogged experiment) size token), store)
  | .deleteLogged id =>
      if store.loggedModels.any fun model =>
          model.id = id && model.stage = .active then
        some (.ok (), store.deleteLogged id)
      else some (.status notFound, store)
  | .listKeys root => some (some (store.keysUnder root), store)
  | .deleteKey key => some (some (), store.deleteObject key)
  | .hang => none

/-- The reply of a call that fails. -/
def refuse (code : Nat) : (op : Op) → Option (Reply op)
  | .searchExperiments .. => some (.status code)
  | .restoreExperiment _ => some (.status code)
  | .updateExperiment .. => some (.status code)
  | .deleteExperiment _ => some (.status code)
  | .searchRegistered .. => some (.status code)
  | .deleteRegistered _ => some (.status code)
  | .searchLogged .. => some (.status code)
  | .deleteLogged _ => some (.status code)
  | .listKeys _ => some none
  | .deleteKey _ => some none
  | .hang => none

/-- A call that fails does not say that what it names is absent. -/
def exec (store : Store) (op : Op) : Choice → Option (Reply op × Store)
  | .succeeds => serve store op
  | .fails code =>
      if code = 200 ∨ code = notFound then none
      else (refuse code op).map fun reply => (reply, store)

/-! ## The gateway -/

inductive Failure where
  /-- `OffboardingError`. -/
  | offboarding (method endpoint : String) (code : Nat)
  /-- The object store raised. -/
  | artifacts
  | died
deriving DecidableEq

abbrev Gateway := Program Op Reply Failure

def experimentPage : Nat := 1000

def modelPage : Nat := 1000

def loggedModelPage : Nat := 100

/-- `_call`. -/
def answer {Data : Type} (method endpoint : String) :
    Response Data → Gateway Data
  | .ok data => pure data
  | .status code => .fail (.offboarding method endpoint code)

/-- `_call`, with `absent_ok`. -/
def answerOrAbsent (method endpoint : String) :
    Response Unit → Gateway Unit
  | .ok data => pure data
  | .status code =>
      if code = notFound then pure ()
      else .fail (.offboarding method endpoint code)

def orRaise {Data : Type} : Option Data → Gateway Data
  | some data => pure data
  | none => .fail .artifacts

def hang {Data : Type} : Gateway Data :=
  .call .hang fun never => nomatch never

/-- `mlflow_deleted_name_prefix`. -/
def deletedNamePrefix (company : Company) : Text :=
  ['_', 'd', 'e', 'l', 'e', 't', 'e', 'd', '.'] ++ namePrefix company

/-- The staging area of the tenant. -/
def stagingArea (company : Company) : Text :=
  stagingRoot ++ tenantToken company ++ ['/']

/-- The pattern of the search under a prefix. -/
def under (owner : Text) : Text :=
  owner ++ ['%']

def ownedExperiment (owner : Text) (experiment : Experiment) :
    Option Experiment :=
  if (ownedName owner experiment.name).isSome then some experiment else none

def ownedModel (owner name : Text) : Option Text :=
  if (ownedName owner name).isSome then some name else none

/-- `_experiments`. -/
def experiments (rounds : Nat) (owner : Text) : Gateway (List Experiment) :=
  Program.pages hang
    (fun token => do
      let reply ← Program.perform
        (Op.searchExperiments (under owner) experimentPage token)
      answer "POST" "experiments/search" reply)
    (ownedExperiment owner) rounds none

/-- `_registered_models`. -/
def registeredModels (rounds : Nat) (owner : Text) : Gateway (List Text) :=
  Program.pages hang
    (fun token => do
      let reply ← Program.perform
        (Op.searchRegistered (under owner) modelPage token)
      answer "GET" "registered-models/search" reply)
    (ownedModel owner) rounds none

/-- `_logged_models`. -/
def loggedModels (rounds : Nat) (experiment : String) :
    Gateway (List String) :=
  Program.pages hang
    (fun token => do
      let reply ← Program.perform
        (Op.searchLogged experiment loggedModelPage token)
      answer "POST" "logged-models/search" reply)
    (fun model => some model.id) rounds none

def listKeys (root : Text) : Gateway (List Text) := do
  let reply ← Program.perform (Op.listKeys root)
  orRaise reply

/-- `_artifact_keys`. -/
def artifactKeys (company : Company) : Gateway (List Text) := do
  let admitted ← listKeys (artifactPrefix company)
  let staged ← listKeys (stagingArea company)
  pure (admitted ++ staged)

def deleteRegistered (name : Text) : Gateway Unit := do
  let reply ← Program.perform (Op.deleteRegistered name)
  answerOrAbsent "DELETE" "registered-models/delete" reply

def deleteArtifact (key : Text) : Gateway Unit := do
  let reply ← Program.perform (Op.deleteKey key)
  orRaise reply

/-- A deleted experiment cannot be renamed; it is restored first. -/
def moveAway (company : Company) (experiment : Experiment) :
    Gateway Unit := do
  if experiment.stage = .deleted then
    let reply ← Program.perform (Op.restoreExperiment experiment.id)
    answer "POST" "experiments/restore" reply
  let reply ← Program.perform (Op.updateExperiment experiment.id
    (deletedNamePrefix company ++ experiment.id.toList))
  answer "POST" "experiments/update" reply

def deleteLogged (model : String) : Gateway Unit := do
  let reply ← Program.perform (Op.deleteLogged model)
  answerOrAbsent "DELETE" ("logged-models/" ++ model) reply

/-- An experiment under the deleted prefix that is not deleted yet. -/
def trash (rounds : Nat) (experiment : Experiment) : Gateway Unit := do
  if experiment.stage = .deleted then pure ()
  else
    let models ← loggedModels rounds experiment.id
    Program.each deleteLogged models
    let reply ← Program.perform (Op.deleteExperiment experiment.id)
    answer "POST" "experiments/delete" reply

structure Remaining where
  experiments : Nat
  registeredModels : Nat
  artifacts : Nat
deriving DecidableEq

/-- `remaining`. -/
def remaining (rounds : Nat) (company : Company) : Gateway Remaining := do
  let named ← experiments rounds (namePrefix company)
  let deleted ← experiments rounds (deletedNamePrefix company)
  let registered ← registeredModels rounds (namePrefix company)
  let keys ← artifactKeys company
  pure ⟨named.length + deleted.length, registered.length, keys.length⟩

/-- `empty_tenant`. -/
def emptyTenant (rounds : Nat) (company : Company) : Gateway Remaining := do
  let registered ← registeredModels rounds (namePrefix company)
  Program.each deleteRegistered registered
  let keys ← artifactKeys company
  Program.each deleteArtifact keys
  let named ← experiments rounds (namePrefix company)
  Program.each (moveAway company) named
  let deleted ← experiments rounds (deletedNamePrefix company)
  Program.each (trash rounds) deleted
  remaining rounds company

/-! ## The tenant and the others -/

/-- What the searches and listings of the tenant look at. -/
structure View where
  experiments : List Experiment
  loggedModels : List Entry
  registered : List Text
  objects : List Text
deriving DecidableEq

/-- The name matches one of the patterns of the tenant. -/
def candidate (company : Company) (name : Text) : Bool :=
  like (under (namePrefix company)) name ||
    like (under (deletedNamePrefix company)) name

def Store.view (store : Store) (company : Company) : View where
  experiments := store.experiments.filter (candidate company ·.name)
  loggedModels := store.loggedModels.filter fun model =>
    store.experiments.any fun experiment =>
      experiment.id = model.experiment && candidate company experiment.name
  registered := store.registered.filter (like (under (namePrefix company)))
  objects := store.objects.filter fun key =>
    (artifactPrefix company).isPrefixOf key ||
      (stagingArea company).isPrefixOf key

/-- The tenant is suspended; the others may do anything that none of its
searches sees. -/
def change (company : Company) (store after : Store) : Option Store :=
  if after.view company = store.view company then some after else none

def offboarding (rounds : Nat) (company : Company) :
    Solo.System Store Op Reply Failure Remaining Choice Store where
  job := emptyTenant rounds company
  dead := .died
  exec := exec
  change := change company

/-- No call is under way. -/
def idle (store : Store) : Solo Store Op Reply Failure Remaining :=
  ⟨store, .fail .died⟩

end IndustryFlow.Tracking.Offboarding
