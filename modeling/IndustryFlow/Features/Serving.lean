import IndustryFlow.Fallible
import IndustryFlow.Features.Offline

/-!
# The serving engine

`FeatureEngineeringEngine` and the `statistical` transform.  Other transforms
are a parameter of the registry.  A reading gives a value for a sensor when it
carries a finite number under its name.
-/

namespace IndustryFlow.Features

variable {Value : Type}

abbrev Reading (Value : Type) : Type :=
  String → Option Value

/-- The newest aggregate row of a sensor. -/
structure Baseline (Value : Type) where
  mean : Value
  std : Option Value
deriving DecidableEq

/-- `compute_baseline`: by company, equipment, sensor and granularity. -/
abbrev Provider (Value : Type) : Type :=
  String → String → String → Option String →
    Except String (Option (Baseline Value))

structure TransformContext (Value : Type) where
  baselineProvider : Option (Provider Value)
  equipmentId : Option String
  companyId : Option String

/-- What a transform or the engine raises. -/
inductive FeatureError where
  | missingSensors (sensors : List String)
  | invalidFeature (feature : String) (reason : String)
  | unknownTransform (types : List String)
  | statefulUnavailable (reason : String)
deriving DecidableEq

abbrev TransformFn (Value : Type) : Type :=
  Transformation → Reading Value → TransformContext Value →
    Except FeatureError Value

/-- A registered transform with its tags. -/
structure Registered (Value : Type) where
  fn : TransformFn Value
  stateful : Bool
  neutral : Value

/-- `sensor_value`. -/
def sensorValue (reading : Reading Value) (sensor : String) :
    Except FeatureError Value :=
  match reading sensor with
  | some value => .ok value
  | none => .error (.missingSensors [sensor])

/-- `missing_sensors`. -/
def missingSensors (reading : Reading Value) (sensors : List String) :
    List String :=
  sensors.filter fun sensor => (reading sensor).isNone

/-- `_sensor`. -/
def namedSensor (transformation : Transformation) :
    Except FeatureError String :=
  match transformation.sensor with
  | none | some "" =>
      .error (.invalidFeature transformation.name "it names no sensor")
  | some sensor => .ok sensor

/-- `_LEGACY_STAT_TYPES`. -/
def canonicalStat (text : Option String) : Option String :=
  if text = some "deviation_from_run_mean" then
    some "deviation_from_window_mean"
  else text

/-- Only the deviation reads the current value. -/
def currentValue (reading : Reading Value) (sensor : String)
    (stat : StatType) : Except FeatureError (Option Value) :=
  if stat = .deviationFromWindowMean then
    (sensorValue reading sensor).map some
  else .ok none

def readBaseline (context : TransformContext Value) (sensor : String)
    (granularity : Option String) : Except FeatureError (Baseline Value) :=
  match context.baselineProvider, given? context.equipmentId,
      given? context.companyId with
  | some provider, some equipment, some company =>
      match provider company equipment sensor granularity with
      | .error raised => .error (.statefulUnavailable
          ("baseline read failed for " ++ sensor ++ ": " ++ raised))
      | .ok none => .error (.statefulUnavailable
          ("no closed aggregate window yet for " ++ sensor))
      | .ok (some baseline) => .ok baseline
  | _, _, _ => .error (.statefulUnavailable
      ("no baseline source for " ++ sensor))

/-- What a statistic makes of the baseline. -/
def statisticOf [Zero Value] [Sub Value] (stat : StatType)
    (current : Option Value) (baseline : Baseline Value) : Value :=
  match stat, current with
  | .windowMean, _ => baseline.mean
  | .windowStd, _ => baseline.std.getD 0
  | .deviationFromWindowMean, some value => value - baseline.mean
  | .deviationFromWindowMean, none => 0

/-- `statistical`.  The text about an unknown `stat_type` leaves out which it
is. -/
def statistical [Zero Value] [Sub Value] : TransformFn Value :=
  fun transformation reading context => do
    let sensor ← namedSensor transformation
    let some stat := (canonicalStat transformation.statType).bind
        StatType.ofText?
      | throw (.invalidFeature transformation.name
          ("stat_type is not one of deviation_from_window_mean, " ++
            "window_mean, window_std"))
    let current ← currentValue reading sensor stat
    let baseline ← readBaseline context sensor transformation.granularity
    pure (statisticOf stat current baseline)

/-- The transforms of a deployment, the others beside `statistical`. -/
def registry [Zero Value] [Sub Value]
    (others : String → Option (Registered Value)) (name : String) :
    Option (Registered Value) :=
  if name = "statistical" then some ⟨statistical, true, 0⟩ else others name

structure Engine (Value : Type) where
  registry : String → Option (Registered Value)
  baseSensors : List String
  transformations : List Transformation
  context : TransformContext Value
  /-- What the kill-switch says, where there is one. -/
  killSwitch : Option Bool

namespace Engine

def requiredSensors (engine : Engine Value) : List String :=
  (engine.baseSensors ++ engine.transformations.flatMap fun
    transformation => (given? transformation.sensor).toList ++
      transformation.sensors.filter (· ≠ "")).eraseDups

/-- The constructor. -/
def create (engine : Engine Value) : Except FeatureError (Engine Value) :=
  let unknown := (engine.transformations.map Transformation.type).filter
    fun type => (engine.registry type).isNone
  if unknown = [] then .ok engine
  else .error (.unknownTransform (inOrder unknown))

/-- `_apply_transformation`. -/
def applyTransformation (engine : Engine Value)
    (transformation : Transformation) (registered : Registered Value)
    (reading : Reading Value) : Except FeatureError Value :=
  if engine.killSwitch = some false ∧ registered.stateful = true then
    .ok registered.neutral
  else registered.fn transformation reading engine.context

/-- The slot of one transformation. -/
def slot (engine : Engine Value) (reading : Reading Value)
    (transformation : Transformation) : Except FeatureError Value :=
  match engine.registry transformation.type with
  | none => .error (.unknownTransform [transformation.type])
  | some registered =>
      match engine.applyTransformation transformation registered reading with
      | .error (.statefulUnavailable reason) =>
          if registered.stateful then .ok registered.neutral
          else .error (.statefulUnavailable reason)
      | result => result

/-- `transform`. -/
def transform (engine : Engine Value) (reading : Reading Value) :
    Except FeatureError (List Value) :=
  let missing := missingSensors reading engine.requiredSensors
  if missing = [] then engine.transformations.mapM (engine.slot reading)
  else .error (.missingSensors missing)

end Engine

end IndustryFlow.Features
