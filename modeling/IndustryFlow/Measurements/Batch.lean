import IndustryFlow.Measurements.Uuid
import Mathlib.Data.List.Sort

/-!
# One micro-batch of the measurement writer

`processBatch` takes the parsed readings of a micro-batch: what the guard
rejects and what refers to an unknown tenant, sensor or equipment goes to the
dead-letter topic, the rest is written tenant by tenant.  The stores and the
broker do not fail here; what is left are the exceptions that the contents of
the readings cause.  Times are in microseconds.
-/

namespace IndustryFlow.Measurements

/-- `MAX_FUTURE_SKEW_SECONDS`. -/
def maxFutureSkew : Int := 300 * 1000000

/-- The processes of the job: the clock, and the instants that the executors'
`datetime.fromtimestamp` can represent, between which the clock stands. -/
structure Runtime where
  otherInt : List Char → Option Int
  now : Int
  earliest : Int
  latest : Int
  current : now + maxFutureSkew ≤ latest

/-- Kafka metadata of a reading, with the message itself. -/
structure Source where
  jsonString : String
  topic : String
  partition : Nat
  offset : Nat
deriving DecidableEq

/-- A reading as `from_json` leaves it, every field nullable.  Doubles are bit
patterns. -/
structure Reading where
  source : Source
  time : Option Int
  sensorId : Option String
  equipmentId : Option String
  siteId : Option String
  companyId : Option String
  value : Option UInt64
  unit : Option String
  qualityCode : Option (BitVec 32)
deriving DecidableEq

inductive Reason where
  | missingOrMalformed
  | invalidCompanyId
  | invalidDeviceId
  | futureTimestamp
  | unknownTenant
  | suspendedTenant
  | unknownSensor
  | unknownEquipment
deriving DecidableEq

namespace Reason

/-- The reasons as published in the dead-letter envelope. -/
def text : Reason → String
  | missingOrMalformed => "missing_or_malformed_field"
  | invalidCompanyId => "invalid_company_id"
  | invalidDeviceId => "invalid_sensor_or_equipment_id"
  | futureTimestamp => "future_timestamp"
  | unknownTenant => "unknown_tenant"
  | suspendedTenant => "suspended_tenant"
  | unknownSensor => "unknown_sensor"
  | unknownEquipment => "unknown_equipment"

end Reason

/-- A row of the batch whose required fields are there. -/
structure Measurement where
  source : Source
  time : Int
  sensorId : String
  equipmentId : String
  siteId : String
  companyId : String
  value : UInt64
  unit : Option String
  qualityCode : Option (BitVec 32)
deriving DecidableEq

/-- The reading with its `REQUIRED_FIELDS`, if none of them is null. -/
def Reading.measurement? (reading : Reading) : Option Measurement := do
  let time ← reading.time
  let sensorId ← reading.sensorId
  let equipmentId ← reading.equipmentId
  let siteId ← reading.siteId
  let companyId ← reading.companyId
  let value ← reading.value
  pure ⟨reading.source, time, sensorId, equipmentId, siteId, companyId,
    value, reading.unit, reading.qualityCode⟩

/-- `rejection_reason`. -/
def rejectionReason (runtime : Runtime) (reading : Reading) :
    Option Reason :=
  match reading.measurement? with
  | none => some .missingOrMalformed
  | some row =>
      if !rlikeUuid row.companyId then some .invalidCompanyId
      else if !rlikeUuid row.sensorId || !rlikeUuid row.equipmentId then
        some .invalidDeviceId
      else if row.time > runtime.now + maxFutureSkew then
        some .futureTimestamp
      else none

/-- The row of a reading that passes the guard. -/
def passing (runtime : Runtime) (reading : Reading) : Option Measurement :=
  if rejectionReason runtime reading = none then reading.measurement?
  else none

structure Key where
  companyId : String
  sensorId : String
  equipmentId : String
deriving DecidableEq

def Measurement.key (row : Measurement) : Key :=
  ⟨row.companyId, row.sensorId, row.equipmentId⟩

/-! ## References -/

/-- What the database holds. -/
structure Database where
  /-- `is_active` of the company with this schema. -/
  registry : String → Option Bool
  hasMeasurements : String → Bool
  hasSensor : String → String → Bool
  hasEquipment : String → String → Bool

/-- What is known of one tenant. -/
structure References where
  refusal : Option Reason
  knownSensors : List String
  knownEquipment : List String

/-- `read_tenant_references`. -/
def readTenantReferences (database : Database) (schema : String)
    (sensorIds equipmentIds : List String) : References :=
  match database.registry schema with
  | none => ⟨some .unknownTenant, [], []⟩
  | some false => ⟨some .suspendedTenant, [], []⟩
  | some true =>
      if database.hasMeasurements schema then
        ⟨none, sensorIds.filter (database.hasSensor schema),
          equipmentIds.filter (database.hasEquipment schema)⟩
      else ⟨some .unknownTenant, [], []⟩

/-- The ids of a key in canonical form. -/
def canonicalKey (runtime : Runtime) (key : Key) : Except Raised Key := do
  let sensorId ← canonicalUuid runtime.otherInt key.sensorId
  let equipmentId ← canonicalUuid runtime.otherInt key.equipmentId
  pure ⟨key.companyId, sensorId, equipmentId⟩

/-- `lookup_references`. -/
def lookupReferences (runtime : Runtime) (database : Database)
    (keys : List Key) : Except Raised (List (String × References)) := do
  let canonical ← keys.mapM (canonicalKey runtime)
  let companies := (keys.map Key.companyId).eraseDups
  companies.mapM fun company => do
    let schema ← schemaName runtime.otherInt company
    let own := canonical.filter (·.companyId = company)
    pure (company, readTenantReferences database schema
      (own.map Key.sensorId) (own.map Key.equipmentId))

/-- Why one key cannot be written. -/
def classifyKey (runtime : Runtime)
    (references : List (String × References)) (key : Key) :
    Except Raised (Option Reason) :=
  match references.lookup key.companyId with
  | none => pure (some .unknownTenant)
  | some tenant =>
      match tenant.refusal with
      | some reason => pure (some reason)
      | none => do
          let sensorId ← canonicalUuid runtime.otherInt key.sensorId
          if sensorId ∉ tenant.knownSensors then pure (some .unknownSensor)
          else do
            let equipmentId ← canonicalUuid runtime.otherInt key.equipmentId
            if equipmentId ∉ tenant.knownEquipment then
              pure (some .unknownEquipment)
            else pure none

/-- `classify_references`: the keys that cannot be written, with reasons. -/
def classifyReferences (runtime : Runtime)
    (references : List (String × References)) (keys : List Key) :
    Except Raised (List (Key × Reason)) := do
  let reasons ← keys.mapM (classifyKey runtime references)
  pure ((keys.zip reasons).filterMap fun entry =>
    entry.2.map fun reason => (entry.1, reason))

/-! ## Writing -/

/-- The row as PostgreSQL stores it. -/
structure Stored where
  time : Int
  sensorId : String
  equipmentId : String
  siteId : String
  value : UInt64
  unit : Option String
  qualityCode : Option (BitVec 32)
deriving DecidableEq

/-- A timestamp becomes a Python `datetime` on the executor. -/
def fromInternal (runtime : Runtime) (time : Int) : Except Raised Int :=
  if time < runtime.earliest ∨ runtime.latest < time then
    .error .yearOutOfRange
  else .ok time

/-- A string becomes an SQL literal. -/
def quoted (text : String) : Except Raised String :=
  if '\x00' ∈ text.toList then .error .nulCharacter else .ok text

/-- A literal for a `uuid` column. -/
def uuidColumn (text : String) : Except Raised String := do
  let literal ← quoted text
  uuidIn literal.toList
  pure literal

/-- `INSERT` of one row. -/
def insertRow (runtime : Runtime) (row : Measurement) :
    Except Raised Stored := do
  let time ← fromInternal runtime row.time
  let sensorId ← uuidColumn row.sensorId
  let equipmentId ← uuidColumn row.equipmentId
  let siteId ← quoted row.siteId
  let unit ← row.unit.mapM quoted
  pure ⟨time, sensorId, equipmentId, siteId, row.value, unit,
    row.qualityCode⟩

/-- `upsert` of one tenant's rows. -/
def writeTenant (runtime : Runtime) (rows : List Measurement)
    (company : String) : Except Raised (String × List Stored) := do
  let schema ← schemaName runtime.otherInt company
  let stored ← (rows.filter (·.companyId = company)).mapM
    (insertRow runtime)
  pure (schema, stored)

/-- The tenants written before the first exception, and the exception. -/
def writeTenants (runtime : Runtime) (rows : List Measurement) :
    List String → List (String × List Stored) × Option Raised
  | [] => ([], none)
  | company :: companies =>
      match writeTenant runtime rows company with
      | .error raised => ([], some raised)
      | .ok written =>
          let rest := writeTenants runtime rows companies
          (written :: rest.1, rest.2)

/-- The keys of the batch that cannot be written, with the reasons. -/
def refusedKeys (runtime : Runtime) (database : Database)
    (keys : List Key) : Except Raised (List (Key × Reason)) :=
  if keys.isEmpty then pure []
  else do
    let references ← lookupReferences runtime database keys
    classifyReferences runtime references keys

/-- What one batch does before it ends or raises. -/
structure Outcome where
  deadLetters : List (Source × Reason)
  written : List (String × List Stored)
  raised : Option Raised

/-- `process_batch`. -/
def processBatch (runtime : Runtime) (database : Database)
    (batch : List Reading) : Outcome :=
  let rejected := batch.filterMap fun reading =>
    (rejectionReason runtime reading).map fun reason =>
      (reading.source, reason)
  let valid := batch.filterMap (passing runtime)
  let keys := (valid.map Measurement.key).eraseDups
  match refusedKeys runtime database keys with
  | .error raised => ⟨[], [], some raised⟩
  | .ok refused =>
      let tagged := valid.filterMap fun row =>
        (refused.lookup row.key).map fun reason => (row.source, reason)
      let kept := valid.filter fun row => (refused.lookup row.key).isNone
      let refusedTenants := (refused.filter fun entry =>
        entry.2 = .unknownTenant ∨ entry.2 = .suspendedTenant).map
          fun entry => entry.1.companyId
      let companies := ((keys.map Key.companyId).eraseDups.filter
        (· ∉ refusedTenants)).insertionSort (· ≤ ·)
      let written := writeTenants runtime kept companies
      ⟨rejected ++ tagged, written.1, written.2⟩

end IndustryFlow.Measurements
