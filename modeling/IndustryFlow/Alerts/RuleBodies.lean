import IndustryFlow.Doubles
import IndustryFlow.JsonText

/-!
# Alert rules and their request models

A rule is validated as a whole: a create on its body, an edit on the stored
row with the change applied.  A body or a set of changes says of each column
that it is not given, that it is null, or its value.
-/

namespace IndustryFlow.AlertRules

open JsonText (Text Value)

inductive DetectionType where
  | threshold
  | ml
  | statistical
deriving DecidableEq

def DetectionType.value : DetectionType → String
  | threshold => "threshold"
  | ml => "ml"
  | statistical => "statistical"

inductive Condition where
  | greaterThan
  | lessThan
  | equals
  | notEquals
  | between
  | outsideRange
deriving DecidableEq

inductive Severity where
  | low
  | medium
  | high
  | critical
deriving DecidableEq

/-! ## Columns -/

/-- `RULE_FIELDS`. -/
inductive Column where
  | name
  | description
  | sensorPattern
  | sensorId
  | equipmentId
  | siteId
  | detectionType
  | condition
  | threshold
  | thresholdMin
  | thresholdMax
  | modelId
  | anomalyThreshold
  | modelConfig
  | severity
  | priority
  | enabled
deriving DecidableEq

/-- A configuration is a dictionary, or the text it is stored as. -/
inductive ModelConfig where
  | fields (members : List (Text × Value))
  | text (content : Text)

namespace Column

def all : List Column :=
  [name, description, sensorPattern, sensorId, equipmentId, siteId,
    detectionType, condition, threshold, thresholdMin, thresholdMax, modelId,
    anomalyThreshold, modelConfig, severity, priority, enabled]

theorem mem_all (column : Column) : column ∈ all := by
  cases column <;> simp [all]

/-- A double is its bits, a UUID its canonical text. -/
@[reducible]
def Value : Column → Type
  | name | description | sensorPattern | siteId => String
  | sensorId | equipmentId | modelId => Text
  | detectionType => DetectionType
  | condition => Condition
  | threshold | thresholdMin | thresholdMax | anomalyThreshold => UInt64
  | modelConfig => ModelConfig
  | severity => Severity
  | priority => Int
  | enabled => Bool

/-- The default of `AlertRuleCreate`; `name` has none and is required. -/
def default : (column : Column) → Option column.Value
  | detectionType => some DetectionType.threshold
  | anomalyThreshold => some (4605831338911806259 : UInt64)
  | severity => some Severity.medium
  | priority => some (0 : Int)
  | enabled => some true
  | _ => none

/-- `AlertRuleCreate` takes null for the column. -/
def nullable : Column → Bool
  | name | detectionType | severity | priority | enabled => false
  | _ => true

end Column

/-- Each column null or a value: a row, or a rule that was validated. -/
abbrev Row := (column : Column) → Option column.Value

/-- Each column not given, null or a value. -/
abbrev Given := (column : Column) → Option (Option column.Value)

/-! ## Validation -/

/-- What the validation library does with doubles that are no numbers. -/
structure Pydantic where
  /-- Such a double is within bounds. -/
  boundsNaN : Bool
  /-- `model_dump` in JSON mode keeps what is not finite, and does not make it
  null. -/
  keepsNonFinite : Bool

inductive Fault where
  | missing
  | wrongType
  | tooShort
  | tooSmall
  | tooLarge
deriving DecidableEq

/-- An entry of `errors()`. -/
inductive Invalid where
  | field (column : Column) (fault : Fault)
  /-- Raised by the validator of the whole model. -/
  | value (message : String)
deriving DecidableEq

/-- `1.0`. -/
def one : UInt64 := 4607182418800017408

/-- `ge=0.0, le=1.0`. -/
def shareFault (pydantic : Pydantic) (double : UInt64) : Option Fault :=
  if Doubles.isNaN double then
    if pydantic.boundsNaN then none else some .tooSmall
  else if Doubles.lt double 0 then some .tooSmall
  else if Doubles.lt one double then some .tooLarge
  else none

/-- The constraint on a value, the same in both models. -/
def valueFault (pydantic : Pydantic) :
    (column : Column) → column.Value → Option Fault
  | .name, name => if name.isEmpty then some .tooShort else none
  | .anomalyThreshold, share => shareFault pydantic share
  | .modelConfig, .text _ => some .wrongType
  | .priority, priority => if priority < 0 then some .tooSmall else none
  | _, _ => none

def fieldFault (pydantic : Pydantic) (column : Column) (nullable : Bool) :
    Option column.Value → Option Fault
  | none => if nullable then none else some .wrongType
  | some value => valueFault pydantic column value

/-- The faults of a body, field by field. -/
def faults (pydantic : Pydantic) (nullable required : Column → Bool)
    (given : Given) : List Invalid :=
  Column.all.filterMap fun column =>
    (match given column with
    | none => if required column then some Fault.missing else none
    | some value => fieldFault pydantic column (nullable column) value).map
      (Invalid.field column)

/-- `_detection_requirements`: what it raises. -/
def detectionRequirements (rule : Row) : Option String :=
  match rule .detectionType with
  | some .threshold | none => none
  | some scored =>
      if (rule .modelId).isNone then
        some (scored.value ++ " rules require a model_id")
      else
        match scored, rule .threshold with
        | .statistical, some threshold =>
            if Doubles.le 0 threshold && Doubles.le threshold one then none
            else some
              "statistical (drift) threshold must be a share in [0.0, 1.0]"
        | _, _ => none

/-- `AlertRuleCreate.model_validate`. -/
def validate (pydantic : Pydantic) (given : Given) :
    Except (List Invalid) Row :=
  match faults pydantic Column.nullable (· = .name) given with
  | [] =>
      let rule : Row := fun column => (given column).getD column.default
      match detectionRequirements rule with
      | none => .ok rule
      | some message => .error [.value message]
  | invalid => .error invalid

/-- The value as it is dumped: a double that is not finite may become null. -/
def dump (pydantic : Pydantic) :
    (column : Column) → column.Value → Option column.Value
  | .threshold, double | .thresholdMin, double | .thresholdMax, double
  | .anomalyThreshold, double =>
      if Doubles.isFinite double || pydantic.keepsNonFinite then some double
      else none
  | _, value => some value

/-- `AlertRuleCreate.columns`. -/
def columns (pydantic : Pydantic) (rule : Row) : Row :=
  fun column => (rule column).bind (dump pydantic column)

/-- The body of `AlertRuleUpdate`: every field may be null. -/
def validateUpdate (pydantic : Pydantic) (given : Given) :
    Except (List Invalid) Given :=
  match faults pydantic (fun _ => true) (fun _ => false) given with
  | [] => .ok given
  | invalid => .error invalid

/-- `AlertRuleUpdate.changes`. -/
def updateChanges (pydantic : Pydantic) (given : Given) : Given :=
  fun column => (given column).map fun value =>
    value.bind (dump pydantic column)

/-- `DetectionModeSwitch`. -/
structure DetectionModeSwitch where
  detectionType : DetectionType
  modelId : Option Text
  condition : Option Condition

/-- `DetectionModeSwitch.changes`. -/
def DetectionModeSwitch.changes (switch : DetectionModeSwitch) : Given
  | .detectionType => some (some switch.detectionType)
  | .modelId => switch.modelId.map some
  | .condition => switch.condition.map some
  | _ => none

/-- No column is given. -/
def Given.isEmpty (given : Given) : Bool :=
  Column.all.all fun column => (given column).isNone

/-! ## Merging -/

/-- The columns of a row that are not null, as the driver reads them: a
configuration as it makes of it. -/
def stored (read : ModelConfig → ModelConfig) (row : Row) : Given
  | .modelConfig => (row .modelConfig).map fun config => some (read config)
  | column => (row column).map some

/-- `{**stored, **changes}`. -/
def merge (stored changes : Given) : Given :=
  fun column => (changes column).or (stored column)

/-- The row with the given columns set. -/
def Given.apply (changes : Given) (row : Row) : Row :=
  fun column => (changes column).getD (row column)

end IndustryFlow.AlertRules
