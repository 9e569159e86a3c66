import IndustryFlow.Features.Serving
import IndustryFlow.Json

/-!
# Feature definitions as they are stored

The engine with the built-in transforms, on the definitions that the API takes:
of a transformation it checks the name and the type, and the rest is any JSON.
What is raised is a refusal, or that an aggregate is not there, or any other
exception of Python.
-/

namespace IndustryFlow.FeatureEngine

open Features (Baseline Reading StatType windows inOrder)

/-! ## What is raised -/

/-- `FeatureRefused`. -/
inductive Refusal where
  | missingSensors (sensors : List String)
  | invalidFeature (feature : Json) (reason : String)
  | unknownTransform (types : List String)

/-- An exception that is neither a refusal nor `StatefulUnavailable`. -/
inductive Failure where
  | typeError
  | attributeError
  | keyError
  | arithmetic
  | other (text : String)

inductive Raised where
  | refused (refusal : Refusal)
  | unavailable (reason : String)
  | failed (failure : Failure)

/-! ## Definitions -/

/-- The dictionary of a transformation. -/
abbrev Definition : Type := List (String × Json)

namespace Definition

/-- `transformation.get("params", {})`. -/
def params (definition : Definition) : Json :=
  (definition.lookup "params").getD (.obj [])

/-- `transformation.get("sensors") or []`. -/
def sensors (definition : Definition) : Json :=
  (Json.get definition "sensors").orElse (.arr [])

end Definition

/-- `value.get(key, other)`. -/
def getOr (value : Json) (key : String) (other : Json) :
    Except Raised Json :=
  match value with
  | .obj fields => .ok ((fields.lookup key).getD other)
  | _ => .error (.failed .attributeError)

def hashable : Json → Bool
  | .arr _ | .obj _ => false
  | _ => true

/-- `list(value)`. -/
def elements : Json → Except Raised (List Json)
  | .arr items => .ok items
  | .str text => .ok (text.toList.map fun char => .str (.singleton char))
  | .obj fields => .ok (fields.map fun field => .str field.1)
  | _ => .error (.failed .typeError)

/-- `value[index]` of a value that is that long. -/
def item (value : Json) (index : Nat) : Except Raised Json :=
  match value with
  | .obj _ => .error (.failed .keyError)
  | value => do
      let items ← elements value
      match items[index]? with
      | some found => .ok found
      | none => .error (.failed .keyError)

/-! ## Transforms -/

section Transforms

variable {Value : Type}

/-- What Python makes of the numbers; `none` is an exception. -/
structure Python (Value : Type) where
  zero : Value
  /-- `value ** power`. -/
  power : Value → Json → Option Value
  /-- `value - baseline`. -/
  minus : Value → Json → Option Value
  /-- `a / (b + 1e-8)`. -/
  ratio : Value → Value → Option Value
  difference : Value → Value → Value
  product : Value → Value → Value
  sum : Value → Value → Value
  repr : Json → String

/-- `compute_baseline`, by company, equipment, sensor and granularity. -/
abbrev Provider (Value : Type) : Type :=
  String → String → String → Json → Except String (Option (Baseline Value))

structure TransformContext (Value : Type) where
  baselineProvider : Option (Provider Value)
  equipmentId : Option String
  companyId : Option String

/-- A registered transform with its tags. -/
structure Registered (Value : Type) where
  fn : Definition → Reading Value → TransformContext Value →
    Except Raised Value
  stateful : Bool
  neutral : Value

/-- `sensor_value`.  No reading has a sensor that is not named by a string, and
the refusal cannot join its name. -/
def sensorValue (reading : Reading Value) : Json → Except Raised Value
  | .str sensor =>
      match reading sensor with
      | some value => .ok value
      | none => .error (.refused (.missingSensors [sensor]))
  | _ => .error (.failed .typeError)

/-- `InvalidFeature`. -/
def invalidFeature (definition : Definition) (reason : String) : Raised :=
  .refused (.invalidFeature (Json.get definition "name") reason)

/-- `_sensor`. -/
def namedSensor (definition : Definition) : Except Raised Json :=
  let sensor := Json.get definition "sensor"
  if sensor.truthy then .ok sensor
  else .error (invalidFeature definition "it names no sensor")

/-- An operation that may raise. -/
def computed (result : Option Value) : Except Raised Value :=
  match result with
  | some value => .ok value
  | none => .error (.failed .arithmetic)

section

variable (python : Python Value) (definition : Definition)
variable (reading : Reading Value) (context : TransformContext Value)

def identity : Except Raised Value := do
  let sensor ← namedSensor definition
  sensorValue reading sensor

def polynomial : Except Raised Value := do
  let power ← getOr definition.params "power" (.num "2" false)
  let sensor ← namedSensor definition
  let value ← sensorValue reading sensor
  computed (python.power value power)

def interaction : Except Raised Value := do
  let operation ← getOr definition.params "operation" (.str "product")
  let sensors ← elements definition.sensors
  if sensors.length < 2 then
    throw (invalidFeature definition
      ("an interaction needs 2 sensors, it names " ++
        toString sensors.length))
  let first ← item definition.sensors 0
  let a ← sensorValue reading first
  let second ← item definition.sensors 1
  let b ← sensorValue reading second
  match operation with
  | .str "ratio" => computed (python.ratio a b)
  | .str "difference" => pure (python.difference a b)
  | .str "product" => pure (python.product a b)
  | .str "sum" => pure (python.sum a b)
  | operation => throw (invalidFeature definition
      ("unknown interaction operation " ++ python.repr operation))

def deviation : Except Raised Value := do
  let baseline ← getOr definition.params "baseline" (.num "0.0" true)
  let sensor ← namedSensor definition
  let value ← sensorValue reading sensor
  computed (python.minus value baseline)

/-- `_LEGACY_STAT_TYPES` and `_STAT_TYPES`. -/
def knownStat? : Json → Option StatType
  | .str "deviation_from_run_mean" => some .deviationFromWindowMean
  | .str text => StatType.ofText? text
  | _ => none

/-- The read of the aggregate. -/
def readBaseline (sensor granularity : Json) :
    Except Raised (Baseline Value) :=
  let named := match sensor with
    | .str name => name
    | sensor => python.repr sensor
  match context.baselineProvider, given? context.equipmentId,
      given? context.companyId with
  | some provider, some equipment, some company =>
      match provider company equipment named granularity with
      | .error raised => .error (.unavailable
          ("baseline read failed for " ++ named ++ ": " ++ raised))
      | .ok none => .error (.unavailable
          ("no closed aggregate window yet for " ++ named))
      | .ok (some baseline) => .ok baseline
  | _, _, _ => .error (.unavailable ("no baseline source for " ++ named))

def statistical : Except Raised Value := do
  let sensor ← namedSensor definition
  let statType ← getOr definition.params "stat_type" .null
  -- A list or a dictionary cannot be looked up among the legacy names.
  if hashable statType = false then throw (.failed .typeError)
  let some stat := knownStat? statType
    | throw (invalidFeature definition
        ("stat_type " ++ python.repr statType ++ " is not one of " ++
          "deviation_from_window_mean, window_mean, window_std"))
  let granularity ← getOr definition.params "granularity" .null
  match stat with
  | .deviationFromWindowMean =>
      let current ← sensorValue reading sensor
      let baseline ← readBaseline python context sensor granularity
      pure (python.difference current baseline.mean)
  | .windowMean =>
      let baseline ← readBaseline python context sensor granularity
      pure baseline.mean
  | .windowStd =>
      let baseline ← readBaseline python context sensor granularity
      pure (baseline.std.getD python.zero)

def rollingStat : Except Raised Value :=
  .error (invalidFeature definition "rolling statistics are not implemented")

end

/-- What the aggregates of a table answer: by company, equipment, sensor and
table. -/
abbrev AggregateStore (Value : Type) : Type :=
  String → String → String → String →
    Except String (Option (Baseline Value))

/-- `compute_baseline`. -/
def computeBaseline (store : AggregateStore Value) : Provider Value :=
  fun company equipment sensor granularity =>
    match granularity.orElse (.str "1min") with
    | .str text =>
        match windows.lookup text with
        | some window => store company equipment sensor window.table
        | none => .ok none
    | other =>
        if hashable other then .ok none else .error "unhashable type"

/-! ## The registry -/

/-- The transforms that the platform registers. -/
def builtins (python : Python Value) : List (String × Registered Value) :=
  [("identity", ⟨fun definition reading _ => identity definition reading,
      false, python.zero⟩),
    ("polynomial", ⟨fun definition reading _ =>
      polynomial python definition reading, false, python.zero⟩),
    ("interaction", ⟨fun definition reading _ =>
      interaction python definition reading, false, python.zero⟩),
    ("deviation", ⟨fun definition reading _ =>
      deviation python definition reading, false, python.zero⟩),
    ("statistical", ⟨statistical python, true, python.zero⟩),
    ("rolling_stat", ⟨fun definition _ _ => rollingStat definition, true,
      python.zero⟩)]

/-- The transforms of a deployment: an extension cannot register a name
again. -/
structure Deployment (Value : Type) where
  python : Python Value
  extensions : List (String × Registered Value)

def Deployment.transforms (deployment : Deployment Value) :
    List (String × Registered Value) :=
  builtins deployment.python ++ deployment.extensions

/-- `get_transform`. -/
def Deployment.getTransform (deployment : Deployment Value) :
    Json → Except Raised (Option (Registered Value))
  | .str name => .ok (deployment.transforms.lookup name)
  | other =>
      if hashable other then .ok none else .error (.failed .typeError)

end Transforms

/-! ## The API -/

section Engine

variable {Value : Type} (deployment : Deployment Value)

inductive ConfigError where
  | needsName
  | hasType (name type : String) (types : List String)
  | typeError

/-- The check of one transformation. -/
def knownTransform (definition : Definition) : Except ConfigError Unit :=
  match Json.get definition "name" with
  | .str "" => .error .needsName
  | .str name =>
      match deployment.getTransform (Json.get definition "type") with
      | .ok (some _) => .ok ()
      | .ok none => .error (.hasType (deployment.python.repr (.str name))
          (deployment.python.repr (Json.get definition "type"))
          (inOrder (deployment.transforms.map Prod.fst)))
      | .error _ => .error .typeError
  | _ => .error .needsName

/-- `_known_transforms`. -/
def knownTransforms (definitions : List Definition) :
    Except ConfigError Unit :=
  definitions.forM (knownTransform deployment)

/-! ## The engine -/

structure FeatureConfig where
  baseSensors : List String
  transformations : List Definition

/-- The sensors that a transformation reads. -/
def sensorsOf (definition : Definition) : Except Raised (List Json) := do
  let sensor := Json.get definition "sensor"
  let sensors ← elements definition.sensors
  pure ((if sensor.truthy then [sensor] else []) ++
    sensors.filter Json.truthy)

/-- `required_sensors`.  `dict.fromkeys` leaves the first of those that are
equal, and the refusal that names the missing ones does so again. -/
def requiredSensors (config : FeatureConfig) : Except Raised (List Json) := do
  let named ← config.transformations.mapM sensorsOf
  let required := config.baseSensors.map Json.str ++ named.flatten
  if required.all hashable = false then throw (.failed .typeError)
  pure required

structure Engine where
  config : FeatureConfig
  required : List Json

/-- The type of a transformation, and whether it is registered. -/
def readType (definition : Definition) : Except Raised (Json × Bool) := do
  let registered ← deployment.getTransform (Json.get definition "type")
  pure (Json.get definition "type", registered.isSome)

/-- The constructor. -/
def create (config : FeatureConfig) : Except Raised Engine := do
  let required ← requiredSensors config
  let found ← config.transformations.mapM (readType deployment)
  let unknown := (found.filter fun entry => !entry.2).map fun entry =>
    entry.1.pyStr deployment.python.repr
  if unknown ≠ [] then
    throw (.refused (.unknownTransform (inOrder unknown)))
  pure ⟨config, required⟩

/-- The reading carries a finite number under the name. -/
def carried (reading : Reading Value) : Json → Bool
  | .str sensor => (reading sensor).isSome
  | _ => false

/-- `MissingSensors`. -/
def missingSensors {Answer : Type} (sensors : List Json) :
    Except Raised Answer := do
  let names ← sensors.mapM fun sensor => match sensor with
    | .str name => .ok name
    | _ => .error (.failed .typeError)
  .error (.refused (.missingSensors names.eraseDups))

/-- The services the engine is given: what the transforms may use, and what the
kill-switch answers, where there is one. -/
structure Services (Value : Type) where
  context : TransformContext Value
  killSwitch : Option Bool

/-- The slot of one transformation. -/
def slot (services : Services Value) (reading : Reading Value)
    (definition : Definition) : Except Raised Value := do
  let found ← deployment.getTransform (Json.get definition "type")
  match found with
  | none => .error (.failed .typeError)
  | some registered =>
      if services.killSwitch = some false ∧ registered.stateful = true then
        .ok registered.neutral
      else
        match registered.fn definition reading services.context with
        | .error (.unavailable reason) =>
            if registered.stateful then .ok registered.neutral
            else .error (.unavailable reason)
        | result => result

/-- `transform`. -/
def transform (services : Services Value) (engine : Engine)
    (reading : Reading Value) : Except Raised (List Value) :=
  let missing := engine.required.filter fun sensor => !carried reading sensor
  if missing = [] then
    engine.config.transformations.mapM (slot deployment services reading)
  else missingSensors missing

/-- The engine is built and transforms a reading. -/
def score (services : Services Value) (config : FeatureConfig)
    (reading : Reading Value) : Except Raised (List Value) := do
  let engine ← create deployment config
  transform deployment services engine reading

end Engine

end IndustryFlow.FeatureEngine
