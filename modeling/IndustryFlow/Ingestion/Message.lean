import IndustryFlow.Alerts.Reading
import IndustryFlow.Calendar
import IndustryFlow.Measurements.Batch
import Mathlib.Algebra.Group.Nat.Defs

/-!
# A reading on its way to its two consumers

The ingestion service validates the body of a request and publishes a message
for it.  The Spark jobs read the message as a row of columns and the alert
worker as a JSON object.  A message is the JSON value that both of them find
in the record.  Times are in microseconds from the start of the calendar.
-/

namespace IndustryFlow.Ingestion

open AlertWorker (codePoints get isFinite)
open Calendar (instant lastInstant)
open Isoformat (Datetime isoformat)
open JsonText (Text Value Limits)
open Measurements (Runtime Source canonicalUuid uuidText maxFutureSkew)

/-! ## The body of a request -/

/-- A UUID, by its number. -/
abbrev Uuid := Fin (2 ^ 128)

/-- What pydantic makes of the values of a body. -/
structure Pydantic where
  datetime : Value → Option Datetime
  uuid : Value → Option Uuid
  str : Value → Option String
  /-- A double is its bits; those that are not finite are taken. -/
  float : Value → Option UInt64
  int : Value → Option Int
  /-- A zone is given in hours and minutes. -/
  minutes : ∀ value time, datetime value = some time →
    ∀ offset ∈ time.offset, offset % 60000000 = 0

/-- `SensorDataInput`. -/
structure SensorDataInput where
  timestamp : Datetime
  sensorId : Uuid
  equipmentId : Uuid
  siteId : String
  value : UInt64
  unit : Option String
  qualityCode : Option Int
  site : 1 ≤ siteId.length ∧ siteId.length ≤ 100
  units : ∀ text ∈ unit, text.length ≤ 20
  quality : ∀ code ∈ qualityCode, 0 ≤ code ∧ code ≤ 2

def required {Answer : Type} (convert : Value → Option Answer)
    (fields : List (Text × Value)) (name : String) : Option Answer := do
  let value ← fields.reverse.lookup (codePoints name)
  convert value

/-- A field whose default is `None`. -/
def optional {Answer : Type} (convert : Value → Option Answer)
    (fields : List (Text × Value)) (name : String) :
    Option (Option Answer) :=
  match get fields name with
  | .null => some none
  | value => (convert value).map some

/-- `_not_in_the_future`; where the bound lies beyond the calendar, computing
it raises. -/
def notInTheFuture (now : Int) (time : Datetime) : Bool :=
  now + maxFutureSkew ≤ lastInstant &&
    instant time.toFields ≤ now + maxFutureSkew

/-- The validation of a body; `none` where the request is refused. -/
def sensorDataInput (pydantic : Pydantic) (now : Int) (body : Value) :
    Option SensorDataInput :=
  match body with
  | .object fields => do
      let timestamp ← required pydantic.datetime fields "timestamp"
      let sensorId ← required pydantic.uuid fields "sensor_id"
      let equipmentId ← required pydantic.uuid fields "equipment_id"
      let siteId ← required pydantic.str fields "site_id"
      let value ← required pydantic.float fields "value"
      let unit ← optional pydantic.str fields "unit"
      let qualityCode ← optional pydantic.int fields "quality_code"
      if valid : notInTheFuture now timestamp = true ∧
          (1 ≤ siteId.length ∧ siteId.length ≤ 100) ∧
          (∀ text ∈ unit, text.length ≤ 20) ∧
          ∀ code ∈ qualityCode, 0 ≤ code ∧ code ≤ 2 then
        some
          { timestamp, sensorId, equipmentId, siteId, value, unit, qualityCode
            site := valid.2.1
            units := valid.2.2.1
            quality := valid.2.2.2 }
      else none
  | _ => none

/-! ## The message -/

/-- What Python makes of numbers and texts; `dumpsFloat` is how `json.dumps`
writes a double. -/
structure Interpreter where
  limits : Limits
  repr : Value → Option String
  floatOfText : Text → Option UInt64
  floatOfInt : Bool → List Char → Option UInt64
  floatOfReal : List Char → UInt64
  otherInt : List Char → Option Int
  otherTime : String → Option Datetime
  dumpsFloat : UInt64 → List Char
  finite : ∀ double, isFinite double = true →
    floatOfReal (dumpsFloat double) = double
  notFinite : ∀ double, isFinite double = false →
    isFinite (floatOfReal (dumpsFloat double)) = false

/-- The text of code points; a lone surrogate has none. -/
def ofCodePoints (text : Text) : Option String := do
  let chars ← text.mapM fun point =>
    if valid : point.isValidChar then some (Char.ofNatAux point valid) else none
  some (String.ofList chars)

/-- The Python of the alert worker. -/
def Interpreter.python (interpreter : Interpreter) : AlertWorker.Python where
  limits := interpreter.limits
  repr := interpreter.repr
  uuid text := do
    let chars ← ofCodePoints text
    let canonical ← (canonicalUuid interpreter.otherInt chars).toOption
    some (codePoints canonical)
  floatOfText := interpreter.floatOfText
  floatOfInt := interpreter.floatOfInt
  floatOfReal := interpreter.floatOfReal
  fromIsoformat text := do
    let chars ← ofCodePoints text
    Isoformat.fromIsoformat interpreter.otherTime chars
  astimezone := Calendar.astimezone

/-- A member of the message that is a text. -/
def textMember (name text : String) : Text × Value :=
  (codePoints name, .text (codePoints text))

/-- The message of `ingest_sensor_data`. -/
def kafkaMessage (interpreter : Interpreter) (companyId : String)
    (data : SensorDataInput) : List (Text × Value) :=
  [textMember "timestamp" (isoformat data.timestamp.toFields),
    textMember "sensor_id" (uuidText data.sensorId),
    textMember "equipment_id" (uuidText data.equipmentId),
    textMember "site_id" data.siteId,
    textMember "company_id" companyId,
    (codePoints "value", .real (interpreter.dumpsFloat data.value)),
    (codePoints "unit",
      match data.unit with
      | some unit => .text (codePoints unit)
      | none => .null),
    (codePoints "quality_code",
      .int false (Nat.toDigits 10 (data.qualityCode.getD 0).natAbs))]

/-! ## The Spark jobs -/

/-- The largest offset of a zone of Java. -/
def javaZone : Nat := 18 * 3600000000

/-- What Spark makes of a JSON value in a column of a type, and of a text as
a timestamp, in a session whose zone is UTC. -/
structure Spark (dumpsFloat : UInt64 → List Char) where
  string : Value → Option String
  double : Value → Option UInt64
  integer : Value → Option (BitVec 32)
  tryToTimestamp : String → Option Int
  readsText : ∀ text, string (.text (codePoints text)) = some text
  readsFinite : ∀ value, isFinite value = true →
    double (.real (dumpsFloat value)) = some value
  /-- The tokens of the doubles that are not finite are read too. -/
  readsToken : ∀ value, (double (.real (dumpsFloat value))).isSome = true
  readsLocal : ∀ time : Datetime, time.offset = none →
    tryToTimestamp (isoformat time.toFields) = some (instant time.toFields)
  readsZone : ∀ (time : Datetime) (offset : Int),
    time.offset = some offset → offset % 60000000 = 0 →
      offset.natAbs ≤ javaZone →
        tryToTimestamp (isoformat time.toFields) =
          some (instant time.toFields)
  /-- Java has no such zone. -/
  refusesZone : ∀ (time : Datetime) (offset : Int),
    time.offset = some offset → javaZone < offset.natAbs →
      tryToTimestamp (isoformat time.toFields) = none

/-- `parse_readings`, of one record. -/
def parseReadings {dumpsFloat : UInt64 → List Char} (spark : Spark dumpsFloat)
    (source : Source) (message : List (Text × Value)) :
    Measurements.Reading where
  source := source
  time := (spark.string (get message "timestamp")).bind spark.tryToTimestamp
  sensorId := spark.string (get message "sensor_id")
  equipmentId := spark.string (get message "equipment_id")
  siteId := spark.string (get message "site_id")
  companyId := spark.string (get message "company_id")
  value := spark.double (get message "value")
  unit := spark.string (get message "unit")
  qualityCode := spark.integer (get message "quality_code")

end IndustryFlow.Ingestion
