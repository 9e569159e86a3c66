import IndustryFlow.Files

/-!
# Loading a model without running its author's code

A model is a downloaded directory with a manifest, both written by whoever
made the model.  The manifest is checked, and what the checks leave is read
from one file of the directory: by `skops.io.load`, with the trust that the
model's provenance is granted, or into one of the classes of xgboost.
-/

namespace IndustryFlow.Loading

open Files

/-! ## Manifests -/

/-- A value of a manifest, as the YAML reader returns it. -/
inductive Value where
  | str (text : String)
  /-- Another scalar, by its `str`, its `repr`, and whether it is true. -/
  | scalar (text : String) (repr : String) (truth : Bool)
  | null
  | seq (items : List Value)
  /-- The keys that are no strings have no name. -/
  | map (entries : List (Option String × Value))

namespace Value

/-- `bool(value)`. -/
def truthy : Value → Bool
  | .str text => text ≠ ""
  | .scalar _ _ truth => truth
  | .null => false
  | .seq items => !items.isEmpty
  | .map entries => !entries.isEmpty

def get (entries : List (Option String × Value)) (key : String) :
    Option Value :=
  entries.lookup (some key)

end Value

inductive Failure where
  /-- `UnsafeArtifact`. -/
  | unsafeArtifact (text : String)
  | valueError (text : String)
  | attributeError
  | typeError
  /-- What skops, xgboost or the import raised. -/
  | raised (text : String)
deriving DecidableEq

/-- How Python writes a value that is no string. -/
structure Writer where
  str : Value → String
  repr : Value → String

/-- What is outside the module: the two readers and the import. -/
structure Runtime (Estimator : Type) where
  /-- `skops.io.load`. -/
  skopsLoad : Path → Option (List String) → Except Failure Estimator
  importModule : String → Except Failure Unit
  construct : String → Except Failure Unit
  /-- `load_model` of a class. -/
  loadModel : String → Path → Except Failure Estimator

inductive Effect where
  | skopsLoad (path : Path) (trusted : Option (List String))
  | importModule (name : String)
  | construct (className : String)
  | loadModel (className : String) (path : Path)
deriving DecidableEq

/-- A loaded model; its metadata is the manifest itself. -/
structure Loaded (Estimator : Type) where
  estimator : Estimator
  predictFn : String

/-- What a load answers, and all that it read or built on the way. -/
structure Outcome (Estimator : Type) where
  result : Except Failure (Loaded Estimator)
  effects : List Effect

/-- A model as it was downloaded. -/
structure Download where
  tree : Tree
  /-- The directory. -/
  dir : List String
  flavors : Value

/-! ## Attributes of values -/

/-- `value.get`, of what is no mapping. -/
def entriesOf : Value → Except Failure (List (Option String × Value))
  | .map entries => .ok entries
  | _ => .error .attributeError

/-- `value in names`; what is not hashable raises. -/
def isOneOf (names : List String) : Value → Except Failure Bool
  | .str text => .ok (text ∈ names)
  | .seq _ => .error .typeError
  | .map _ => .error .typeError
  | _ => .ok false

/-- `value or {}`. -/
def orEmpty (value : Option Value) : Value :=
  match value with
  | some value => if value.truthy then value else .map []
  | none => .map []

/-! ## Trust -/

/-- `PROVENANCE_KERNEL`. -/
def provenanceKernel : String := "kernel"

/-- `KERNEL_TRUSTED_TYPES`. -/
def kernelTrustedTypes : List String :=
  ["sklearn.tree._tree.Tree",
    "sklearn.ensemble._hist_gradient_boosting.predictor.TreePredictor"]

/-- `trusted_types_for`. -/
def trustedTypesFor (provenance : Option String) : Option (List String) :=
  if provenance = some provenanceKernel then some kernelTrustedTypes
  else none

/-- `is_skops_sklearn`. -/
def isSkopsSklearn (flavors : Value) : Except Failure Bool := do
  let entries ← entriesOf flavors
  match Value.get entries "sklearn" with
  | none => pure false
  | some conf =>
      if conf.truthy then
        let fields ← entriesOf conf
        match Value.get fields "serialization_format" with
        | some (.str format) => pure (format = "skops")
        | _ => pure false
      else pure false

/-- `_PREDICT_FNS`. -/
def predictFns : List String :=
  ["predict", "predict_proba", "predict_log_proba", "predict_joint_log_proba",
    "score"]

/-- `PLATFORM_LOADERS`. -/
def platformLoaders : List String :=
  ["mlflow.sklearn", "mlflow.xgboost"]

/-- `_XGBOOST_MODEL_CLASSES`. -/
def xgboostModelClasses : List String :=
  ["xgboost.core.Booster", "xgboost.sklearn.XGBClassifier",
    "xgboost.sklearn.XGBRegressor", "xgboost.sklearn.XGBRanker",
    "xgboost.sklearn.XGBRFClassifier", "xgboost.sklearn.XGBRFRegressor"]

/-- `conf.get("code")` of a flavor that is a mapping. -/
def shipsCode : Value → Bool
  | .map fields => ((Value.get fields "code").getD .null).truthy
  | _ => false

variable (writer : Writer)

def str : Value → String
  | .str text => text
  | .scalar text _ _ => text
  | .null => "None"
  | other => writer.str other

def repr : Value → String
  | .scalar _ repr _ => repr
  | .null => "None"
  | other => writer.repr other

def isStr (text : String) : Value → Bool
  | .str found => found = text
  | _ => false

/-- The class that the xgboost flavor names, if it is one of xgboost's. -/
def xgboostClass (flavors : List (Option String × Value)) :
    Except Failure (String × List (Option String × Value)) :=
  match Value.get flavors "xgboost" with
  | some (.map conf) => do
      let modelClass := (Value.get conf "model_class").getD
        (.str "xgboost.core.Booster")
      let known ← isOneOf xgboostModelClasses modelClass
      if known then pure (str writer modelClass, conf)
      else .error (.unsafeArtifact ("the artifact asks to construct " ++
        repr writer modelClass ++ ", not an xgboost model"))
  | _ => .error (.unsafeArtifact
      "an xgboost-loaded model has no xgboost flavor")

/-- `refuse_author_code`. -/
def refuseAuthorCode (flavors : Value) : Except Failure Unit := do
  let entries ← entriesOf flavors
  let py := orEmpty (Value.get entries "python_function")
  if !py.truthy then
    .error (.unsafeArtifact "the model has no python_function flavor")
  else if entries.any fun entry => shipsCode entry.2 then
    .error (.unsafeArtifact
      "the artifact ships code to put on the import path")
  else
    let fields ← entriesOf py
    let loader := (Value.get fields "loader_module").getD .null
    let known ← isOneOf platformLoaders loader
    if !known then
      .error (.unsafeArtifact ("the artifact's loader " ++ repr writer loader ++
        " is not one of the platform's own data-only loaders " ++
        "(mlflow.sklearn, mlflow.xgboost)"))
    else if isStr "mlflow.sklearn" loader then
      let skops ← isSkopsSklearn flavors
      if skops then pure ()
      else .error (.unsafeArtifact ("a sklearn model not serialised with " ++
        "skops is object deserialisation"))
    else
      let _ ← xgboostClass writer entries
      pure ()

/-! ## Files of the directory -/

/-- The names of a path, split at its slashes. -/
def namesOf (path : String) : List String :=
  (path.toList.splitOn '/').map String.ofList

/-- `os.path.join`, of an absolute path and what the manifest says. -/
def joinPath (root : Path) (path : String) : List String :=
  if path.toList.head? = some '/' then namesOf path else root ++ namesOf path

/-- `os.path.realpath`; a null character is refused. -/
def resolve (tree : Tree) (root : Path) (path : String) :
    Except Failure Path :=
  if '\x00' ∈ path.toList then .error (.valueError "embedded null character")
  else .ok (realpath tree (joinPath root path))

/-- `_refuse_paths_outside`, of one flavor. -/
def refuseOutside (tree : Tree) (root : Path) (conf : Value) :
    Except Failure Unit :=
  match conf with
  | .map fields =>
      match Value.get fields "data" with
      | none => pure ()
      | some .null => pure ()
      | some rel => do
          let path ← resolve tree root (str writer rel)
          if commonpath root path = root then pure ()
          else .error (.unsafeArtifact
            "the artifact names a file outside the model directory")
  | _ => pure ()

/-- `_refuse_paths_outside`. -/
def refusePathsOutside (download : Download) : Except Failure Unit := do
  let root := realpath download.tree download.dir
  let entries ← entriesOf download.flavors
  refuseOutside writer download.tree root
    (orEmpty (Value.get entries "python_function"))
  refuseOutside writer download.tree root
    (orEmpty (Value.get entries "xgboost"))

/-- The regular file that a loader opens. -/
def fileInside (tree : Tree) (root : Path) (name : String) :
    Except Failure Path := do
  let path ← resolve tree root name
  if commonpath root path = root && isFile tree path then pure path
  else .error (.valueError ("the model's serialized file is missing or " ++
    "outside the model directory"))

/-! ## The two loaders -/

variable {Estimator : Type} (runtime : Runtime Estimator)

/-- `first or second or ""`, where only a text can name a file. -/
def firstPath (first second : Option Value) : Except Failure String :=
  let chosen := match first with
    | some value => if value.truthy then some value else second
    | none => second
  match chosen with
  | some (.str text) => .ok text
  | some value => if value.truthy then .error .typeError else .ok ""
  | none => .ok ""

/-- The checks of `_load_local_skops`: the file and the method. -/
def checkSkops (download : Download) : Except Failure (Path × String) := do
  let entries ← entriesOf download.flavors
  let py := (Value.get entries "python_function").getD .null
  if !py.truthy then
    .error (.valueError "the model has no python_function flavor")
  else
    let fields ← entriesOf py
    let loader := (Value.get fields "loader_module").getD .null
    if !isStr "mlflow.sklearn" loader then
      .error (.valueError ("a sklearn model whose pyfunc loader is " ++
        repr writer loader ++ " is not supported"))
    else
      let predictFn := (Value.get fields "predict_fn").getD (.str "predict")
      let known ← isOneOf predictFns predictFn
      if !known then
        .error (.valueError ("unsupported pyfunc predict_fn " ++
          repr writer predictFn))
      else
        let name ← firstPath (Value.get fields "data")
          (Value.get fields "model_path")
        let path ← fileInside download.tree
          (realpath download.tree download.dir) name
        pure (path, str writer predictFn)

/-- `_load_local_skops`. -/
def loadLocalSkops (download : Download) (provenance : Option String) :
    Outcome Estimator :=
  match checkSkops writer download with
  | .error failure => ⟨.error failure, []⟩
  | .ok (path, predictFn) =>
      ⟨(runtime.skopsLoad path (trustedTypesFor provenance)).map
          fun estimator => ⟨estimator, predictFn⟩,
        [.skopsLoad path (trustedTypesFor provenance)]⟩

/-- The checks of `_load_local_xgboost`: the class and the file. -/
def checkXgboost (download : Download) : Except Failure (String × Path) := do
  let entries ← entriesOf download.flavors
  let fields ← entriesOf (orEmpty (Value.get entries "python_function"))
  let loader := (Value.get fields "loader_module").getD .null
  if !isStr "mlflow.xgboost" loader then
    .error (.unsafeArtifact ("the artifact's loader " ++ repr writer loader ++
      " is not one this module reads"))
  else
    let predictFn := (Value.get fields "predict_fn").getD (.str "predict")
    if !isStr "predict" predictFn then
      .error (.valueError ("unsupported pyfunc predict_fn " ++
        repr writer predictFn))
    else
      let (modelClass, conf) ← xgboostClass writer entries
      let data := (Value.get conf "data").getD .null
      let path ← fileInside download.tree
        (realpath download.tree download.dir)
        (if data.truthy then str writer data else "")
      pure (modelClass, path)

/-- `model_class.rpartition(".")`: the module of a class. -/
def moduleOf (modelClass : String) : String :=
  String.ofList (((modelClass.toList.reverse.dropWhile (· ≠ '.')).drop 1
    ).reverse)

/-- `_load_local_xgboost`. -/
def loadLocalXgboost (download : Download) : Outcome Estimator :=
  match checkXgboost writer download with
  | .error failure => ⟨.error failure, []⟩
  | .ok (modelClass, path) =>
      match runtime.importModule (moduleOf modelClass) with
      | .error failure =>
          ⟨.error failure, [.importModule (moduleOf modelClass)]⟩
      | .ok _ =>
          match runtime.construct modelClass with
          | .error failure =>
              ⟨.error failure, [.importModule (moduleOf modelClass),
                .construct modelClass]⟩
          | .ok _ =>
              ⟨(runtime.loadModel modelClass path).map
                  fun estimator => ⟨estimator, "predict"⟩,
                [.importModule (moduleOf modelClass), .construct modelClass,
                  .loadModel modelClass path]⟩

/-- `load_pyfunc`, of a model that has been downloaded. -/
def loadPyfunc (download : Download) (provenance : Option String) :
    Outcome Estimator :=
  let checked : Except Failure Bool := do
    refuseAuthorCode writer download.flavors
    refusePathsOutside writer download
    isSkopsSklearn download.flavors
  match checked with
  | .error failure => ⟨.error failure, []⟩
  | .ok true => loadLocalSkops writer runtime download provenance
  | .ok false => loadLocalXgboost writer runtime download

end IndustryFlow.Loading
