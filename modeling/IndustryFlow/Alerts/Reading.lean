import IndustryFlow.Isoformat
import IndustryFlow.JsonText

/-!
# Evaluating one reading

What the alert worker does with a record that it could read: the checks of
`parse_reading`, the rules of the tenant, and the alerts they raise.  Every
step says what it can raise: the worker's own code one of its own exceptions,
a call of a dependency a fault of that dependency.  How Python reads numbers
and times, and what the dependencies answer, is left open.
-/

namespace IndustryFlow.AlertWorker

open Isoformat (Datetime isoformat)
open JsonText (Text Value Limits)

/-! ## Exceptions -/

/-- What the worker's own code raises. -/
inductive Own where
  /-- `MessageValidationError`. -/
  | validation (reason : String)
  /-- `OverflowError`. -/
  | overflow
  /-- `RecursionError`. -/
  | recursion
  /-- `TypeError`, `KeyError` and the like. -/
  | other (text : String)
deriving DecidableEq

/-- What a call of a dependency raises. -/
inductive Fault where
  | osError (text : String)
  | timeout
  /-- `asyncpg.InterfaceError`. -/
  | interface (text : String)
  /-- `asyncpg.PostgresError`. -/
  | postgres (sqlstate : Option String) (text : String)
  | other (text : String)
deriving DecidableEq

inductive Raised where
  | own (error : Own)
  | dependency (fault : Fault)
deriving DecidableEq

/-- `_TRANSIENT_SQLSTATE_CLASSES`. -/
def transientSqlstateClasses : List (List Char) :=
  ["08".toList, "40".toList, "53".toList, "57".toList, "58".toList]

/-- `is_infrastructure_error`. -/
def isInfrastructureError : Raised → Bool
  | .own _ => false
  | .dependency (.osError _) => true
  | .dependency .timeout => true
  | .dependency (.interface _) => true
  | .dependency (.postgres sqlstate _) =>
      (sqlstate.getD "").toList.take 2 ∈ transientSqlstateClasses
  | .dependency (.other _) => false

/-! ## Python -/

def codePoints (text : String) : Text :=
  text.toList.map Char.toNat

theorem codePoints_ofList (chars : List Char) :
    codePoints (String.ofList chars) = chars.map Char.toNat :=
  congrArg (List.map Char.toNat) String.toList_ofList

/-- What Python makes of values.  A double is its bits. -/
structure Python where
  limits : Limits
  /-- `repr`, or a `RecursionError`. -/
  repr : Value → Option String
  /-- `str(uuid.UUID(text))`, or a `ValueError`. -/
  uuid : Text → Option Text
  /-- `float` of a text, or a `ValueError`. -/
  floatOfText : Text → Option UInt64
  /-- `float` of an integer, or an `OverflowError`. -/
  floatOfInt : Bool → List Char → Option UInt64
  floatOfReal : List Char → UInt64
  /-- `datetime.fromisoformat`, or a `ValueError`. -/
  fromIsoformat : Text → Option Datetime
  /-- `astimezone(timezone.utc)`, or an `OverflowError`. -/
  astimezone : Datetime → Option Datetime

def isFinite (double : UInt64) : Bool :=
  (double >>> 52) &&& 0x7ff ≠ 0x7ff

/-- `repr` of a double that is not finite. -/
def nonFinite (double : UInt64) : String :=
  if double <<< 12 ≠ 0 then "nan"
  else if double >>> 63 = 1 then "-inf"
  else "inf"

/-- `type(value).__name__`. -/
def typeName : Value → String
  | .null => "NoneType"
  | .bool _ => "bool"
  | .int _ _ => "int"
  | .real _ => "float"
  | .text _ => "str"
  | .array _ => "list"
  | .object _ => "dict"

/-- `fields.get(name)`: of a name that comes twice the last. -/
def get (fields : List (Text × Value)) (name : String) : Value :=
  (fields.reverse.lookup (codePoints name)).getD .null

namespace Python

variable (python : Python)

/-- `bool(value)`. -/
def truthy : Value → Bool
  | .null => false
  | .bool value => value
  | .int _ digits => digits ≠ ['0']
  | .real literal => (python.floatOfReal literal) <<< 1 ≠ 0
  | .text value => value ≠ []
  | .array items => !items.isEmpty
  | .object fields => !fields.isEmpty

/-- `str(value)`. -/
def str : Value → Except Own Text
  | .text value => .ok value
  | value =>
      match python.repr value with
      | some shown => .ok (codePoints shown)
      | none => .error .recursion

/-- `raise MessageValidationError(f"{message}{value!r}")`. -/
def invalid {Answer : Type} (message : String) (value : Value) :
    Except Own Answer :=
  match python.repr value with
  | some shown => .error (.validation (message ++ shown))
  | none => .error .recursion

/-- `_uuid_field`. -/
def uuidField (raw : Value) (field : String) (required : Bool) :
    Except Own (Option Text) :=
  match raw with
  | .null | .text [] =>
      if required then .error (.validation ("reading has no " ++ field))
      else .ok none
  | raw => do
      let text ← python.str raw
      match python.uuid text with
      | some canonical => .ok (some canonical)
      | none => python.invalid (field ++ " is not a UUID: ") raw

/-- The conversion of `value`. -/
def numeric (value : Value) : Except Own UInt64 := do
  let double ← match value with
    | .null | .bool _ => python.invalid "reading has no numeric value: " value
    | .text text =>
        match python.floatOfText text with
        | some double => .ok double
        | none => python.invalid "value is not a number: " value
    | .int negative digits =>
        match python.floatOfInt negative digits with
        | some double => .ok double
        | none => .error .overflow
    | .real literal => .ok (python.floatOfReal literal)
    | .array _ | .object _ => python.invalid "value is not a number: " value
  if isFinite double then .ok double
  else .error (.validation ("value is not finite: " ++ nonFinite double))

/-- `text.replace('Z', '+00:00')`. -/
def withOffset (text : Text) : Text :=
  text.flatMap fun point =>
    if point = 'Z'.toNat then codePoints "+00:00" else [point]

/-- `as_utc(value).isoformat()` of a time that is not aware. -/
def utcText (time : Datetime) : String :=
  isoformat { time.toFields with offset := some 0 }

/-- The conversion of `time` and of `timestamp`. -/
def eventTime (field : String) (value : Value) :
    Except Own (Option String) :=
  match value with
  | .null => .ok none
  | .text text =>
      match python.fromIsoformat (withOffset text) with
      | none => python.invalid (field ++ " is not an ISO 8601 time: ") value
      | some time =>
          if time.aware then
            match python.astimezone time with
            | some shifted => .ok (some (isoformat shifted.toFields))
            | none => .error .overflow
          else .ok (some (utcText time))
  | value => python.invalid (field ++ " is not an ISO 8601 time: ") value

end Python

/-- What `parse_reading` returns, as far as the evaluation reads it. -/
structure Reading where
  sensorId : Text
  equipmentId : Option Text
  value : UInt64
  time : Option String
  timestamp : Option String
  siteId : Value

/-- `parse_reading`. -/
def parseReading (python : Python) (sensorData companyId : Value) :
    Except Own Reading :=
  match sensorData with
  | .object fields => do
      let _ ← python.uuidField companyId "company_id" true
      let sensorId ← python.uuidField (get fields "sensor_id") "sensor_id" true
      let equipmentId ←
        python.uuidField (get fields "equipment_id") "equipment_id" false
      let value ← python.numeric (get fields "value")
      let time ← python.eventTime "time" (get fields "time")
      let timestamp ← python.eventTime "timestamp" (get fields "timestamp")
      .ok
        { sensorId := sensorId.getD []
          equipmentId, value, time, timestamp
          siteId := get fields "site_id" }
  | other => .error (.validation
      ("reading is not an object: " ++ typeName other))

/-! ## The evaluation -/

/-- The rules of the worker and the answers of its dependencies, while one
attempt lasts. -/
structure Attempt (Rule Alert : Type) where
  /-- Whether readings are stored for inference. -/
  featureStore : Bool
  /-- `_get_sensor_name`. -/
  sensorName : Reading → Except Fault Unit
  /-- `self.tenant_rules.get(company_id, [])`. -/
  rules : Value → Except Own (List Rule)
  /-- `_get_applicable_rules`. -/
  applicable : Reading → Rule → Bool
  /-- `_evaluate_rule`. -/
  evaluateRule : Reading → Rule → Except Own (Option Alert)
  /-- `_emit` before it asks the database; `none` when the cache suppresses
  the alert. -/
  prepare : Alert → Except Own (Option Alert)
  /-- `save_alert_once`. -/
  save : Alert → Except Fault Unit

section

variable {Rule Alert : Type}

/-- A step of the worker's own code. -/
def ofOwn {Answer : Type} (step : Except Own Answer) : Except Raised Answer :=
  step.mapError .own

/-- A call of a dependency. -/
def ofDependency {Answer : Type} (call : Except Fault Answer) :
    Except Raised Answer :=
  call.mapError .dependency

/-- `_emit`. -/
def emit (attempt : Attempt Rule Alert) (alert : Alert) :
    Except Raised Unit := do
  let prepared ← ofOwn (attempt.prepare alert)
  match prepared with
  | none => .ok ()
  | some alert => ofDependency (attempt.save alert)

/-- The loop over the rules. -/
def evaluateRules (attempt : Attempt Rule Alert) (reading : Reading) :
    List Rule → Except Raised Unit
  | [] => .ok ()
  | rule :: rules => do
      let alert ← ofOwn (attempt.evaluateRule reading rule)
      match alert with
      | none => evaluateRules attempt reading rules
      | some alert => do
          emit attempt alert
          evaluateRules attempt reading rules

/-- The snapshot of the feature store: the sensor's name is looked up, and
what `store_reading` raises is caught. -/
def storeReading (attempt : Attempt Rule Alert) (reading : Reading) :
    Except Raised Unit :=
  if attempt.featureStore && reading.equipmentId.isSome then
    ofDependency (attempt.sensorName reading)
  else .ok ()

/-- `evaluate`. -/
def evaluate (python : Python) (attempt : Attempt Rule Alert)
    (sensorData companyId : Value) : Except Raised Unit := do
  let reading ← ofOwn (parseReading python sensorData companyId)
  storeReading attempt reading
  let rules ← ofOwn (attempt.rules companyId)
  evaluateRules attempt reading (rules.filter (attempt.applicable reading))

/-- `_process_message`. -/
def processMessage (python : Python) (attempt : Attempt Rule Alert)
    (fields : List (Text × Value)) : Except Raised Unit :=
  if python.truthy (get fields "company_id") then
    evaluate python attempt (.object fields) (get fields "company_id")
  else .error (.own (.validation "reading has no company_id"))

/-! ## What an attempt can raise -/

/-- The fault is what a dependency answered in this attempt. -/
def Attempt.Raises (attempt : Attempt Rule Alert) (fault : Fault) : Prop :=
  (∃ reading, attempt.sensorName reading = .error fault) ∨
    ∃ alert, attempt.save alert = .error fault

theorem ofOwn_dependency {Answer : Type} {step : Except Own Answer}
    {fault : Fault} : ofOwn step ≠ .error (.dependency fault) := by
  cases step with
  | error error => simp [ofOwn, Except.mapError]
  | ok answer => simp [ofOwn, Except.mapError]

theorem ofDependency_fault {Answer : Type} {call : Except Fault Answer}
    {fault : Fault} (raised : ofDependency call = .error (.dependency fault)) :
    call = .error fault := by
  cases call with
  | error first =>
      cases raised
      rfl
  | ok answer => cases raised

theorem emit_raises {attempt : Attempt Rule Alert} {alert : Alert}
    {fault : Fault}
    (raised : emit attempt alert = .error (.dependency fault)) :
    attempt.Raises fault := by
  rw [emit, bind_error_iff] at raised
  rcases raised with own | ⟨prepared, -, raised⟩
  · exact absurd own ofOwn_dependency
  · cases prepared with
    | none => cases raised
    | some alert => exact .inr ⟨alert, ofDependency_fault raised⟩

theorem evaluateRules_raises {attempt : Attempt Rule Alert}
    {reading : Reading} {rules : List Rule} {fault : Fault}
    (raised : evaluateRules attempt reading rules =
      .error (.dependency fault)) :
    attempt.Raises fault := by
  induction rules with
  | nil => cases raised
  | cons rule rules induction =>
      rw [evaluateRules, bind_error_iff] at raised
      rcases raised with own | ⟨alert, -, raised⟩
      · exact absurd own ofOwn_dependency
      · cases alert with
        | none => exact induction raised
        | some alert =>
            rcases bind_error_iff.mp raised with emitted | ⟨_, -, later⟩
            · exact emit_raises emitted
            · exact induction later

theorem storeReading_raises {attempt : Attempt Rule Alert}
    {reading : Reading} {fault : Fault}
    (raised : storeReading attempt reading = .error (.dependency fault)) :
    attempt.Raises fault := by
  rw [storeReading] at raised
  split at raised
  · exact .inl ⟨reading, ofDependency_fault raised⟩
  · cases raised

/-- A fault comes from a dependency. -/
theorem processMessage_raises {python : Python}
    {attempt : Attempt Rule Alert} {fields : List (Text × Value)}
    {fault : Fault}
    (raised : processMessage python attempt fields =
      .error (.dependency fault)) :
    attempt.Raises fault := by
  rw [processMessage] at raised
  split at raised
  · rw [evaluate, bind_error_iff] at raised
    rcases raised with own | ⟨reading, -, raised⟩
    · exact absurd own ofOwn_dependency
    · rcases bind_error_iff.mp raised with stored | ⟨_, -, raised⟩
      · exact storeReading_raises stored
      · rcases bind_error_iff.mp raised with own | ⟨rules, -, raised⟩
        · exact absurd own ofOwn_dependency
        · exact evaluateRules_raises raised
  · cases raised

end

end IndustryFlow.AlertWorker
