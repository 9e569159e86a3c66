import IndustryFlow.Measurements.Routing
import IndustryFlow.Upsert

/-!
# The aggregation job

The readings that pass the guard are grouped by window and by the identifiers
as they are spelled, each group is summarised, and the summaries of a batch are
upserted tenant by tenant.  In the table the identifiers are UUIDs.  The
database answers; what is left are the exceptions that the readings cause.
Times are in microseconds.
-/

namespace IndustryFlow.Aggregations

open Measurements

inductive Granularity where
  | oneMinute
  | fiveMinutes
  | oneHour
deriving DecidableEq

namespace Granularity

def widthSeconds : Granularity → Int
  | oneMinute => 60
  | fiveMinutes => 300
  | oneHour => 3600

def width (granularity : Granularity) : Int :=
  granularity.widthSeconds * 1000000

/-- `window.end` of the tumbling window of an instant. -/
def windowEnd (granularity : Granularity) (time : Int) : Int :=
  (time / granularity.width + 1) * granularity.width

end Granularity

/-- The columns of an aggregate that are not its key.  Doubles are bit
patterns. -/
structure Stats where
  avgValue : UInt64
  minValue : UInt64
  maxValue : UInt64
  stddevValue : Option UInt64
  countValues : Nat
  anomalyCount : Nat
  anomalyPercentage : UInt64
deriving DecidableEq

/-- The group of a reading: its window and its identifiers as spelled. -/
structure Group where
  time : Int
  key : Key
deriving DecidableEq

/-- A row of the aggregated frame. -/
structure Aggregate where
  group : Group
  stats : Stats
deriving DecidableEq

/-- What Spark computes over the values of a group, and the order in which a
frame is collected. -/
structure Engine where
  avg : List UInt64 → UInt64
  min : List UInt64 → UInt64
  max : List UInt64 → UInt64
  stddev : List UInt64 → Option UInt64
  order : List Aggregate → List Aggregate
  order_perm : ∀ rows, (order rows).Perm rows

def Engine.stats (engine : Engine) (values : List UInt64) : Stats where
  avgValue := engine.avg values
  minValue := engine.min values
  maxValue := engine.max values
  stddevValue := engine.stddev values
  countValues := values.length
  anomalyCount := 0
  anomalyPercentage := 0

/-! ## Aggregating -/

def groupOf (granularity : Granularity) (row : Measurement) : Group :=
  ⟨granularity.windowEnd row.time, row.key⟩

/-- The values of a group. -/
def valuesOf (granularity : Granularity) (rows : List Measurement)
    (group : Group) : List UInt64 :=
  (rows.filter (groupOf granularity · = group)).map Measurement.value

/-- `aggregate_readings`. -/
def aggregateReadings (runtime : Runtime) (engine : Engine)
    (granularity : Granularity) (readings : List Reading) :
    List Aggregate :=
  let rows := validRows runtime readings
  ((rows.map (groupOf granularity)).eraseDups).map fun group =>
    ⟨group, engine.stats (valuesOf granularity rows group)⟩

/-! ## Writing -/

/-- The natural key of an aggregation table, in the schema of a tenant. -/
structure ConflictKey where
  schema : String
  time : Int
  sensorId : String
  equipmentId : String
deriving DecidableEq

abbrev Tables := Table ConflictKey Stats

inductive Failure where
  | exception (raised : Raised)
  /-- `ON CONFLICT DO UPDATE command cannot affect row a second time`. -/
  | cardinalityViolation
deriving DecidableEq

/-- What a batch leaves: the tables, the keys that each statement proposed, and
how it ended. -/
structure Outcome where
  tables : Tables
  statements : List (List ConflictKey)
  raised : Option Failure

/-- What `classify_references` is given for one tenant. -/
def answerFor (company : String) (references : References) :
    Routing.Answer where
  tenantRefusal other :=
    if other = company then some references.refusal else none
  knownSensors other :=
    if other = company then some references.knownSensors else none
  knownEquipment other :=
    if other = company then some references.knownEquipment else none

/-- The keys of one tenant's rows that cannot be written. -/
def refusedKeys (runtime : Runtime) (database : Database)
    (company schema : String) (keys : List Key) :
    Except Raised (List (Key × Reason)) := do
  let sensors ← keys.mapM fun key =>
    canonicalUuid runtime.otherInt key.sensorId
  let equipment ← keys.mapM fun key =>
    canonicalUuid runtime.otherInt key.equipmentId
  Routing.classifyReferences runtime (answerFor company
    (readTenantReferences database schema sensors equipment)) keys

/-- The row as PostgreSQL takes it: the `uuid` columns read the spellings. -/
def proposed (runtime : Runtime) (schema : String) (row : Aggregate) :
    Except Raised (ConflictKey × Stats) := do
  let sensorId ← canonicalUuid runtime.otherInt row.group.key.sensorId
  let equipmentId ← canonicalUuid runtime.otherInt row.group.key.equipmentId
  pure (⟨schema, row.group.time, sensorId, equipmentId⟩, row.stats)

/-- The rows proposed for one tenant. -/
def tenantRows (runtime : Runtime) (database : Database)
    (rows : List Aggregate) (company : String) :
    Except Raised (List (ConflictKey × Stats)) := do
  let schema ← schemaName runtime.otherInt company
  let own := rows.filter (·.group.key.companyId = company)
  let refused ← refusedKeys runtime database company schema
    (own.map (·.group.key)).eraseDups
  let kept := own.filter (·.group.key ∉ refused.map Prod.fst)
  kept.mapM (proposed runtime schema)

/-- The page size of `execute_values`. -/
def pageSize : Nat := 100

/-- One transaction for each tenant. -/
def writeTenants (runtime : Runtime) (database : Database)
    (rows : List Aggregate) (tables : Tables) : List String → Outcome
  | [] => ⟨tables, [], none⟩
  | company :: companies =>
      match tenantRows runtime database rows company with
      | .error raised => ⟨tables, [], some (.exception raised)⟩
      | .ok values =>
          match runStatements tables (pagesAfter pageSize [] values) with
          | (statements, none) =>
              ⟨tables, statements, some .cardinalityViolation⟩
          | (statements, some written) =>
              let rest := writeTenants runtime database rows written companies
              ⟨rest.tables, statements ++ rest.statements, rest.raised⟩

/-- The companies of the rows, in the order in which they are written. -/
def tenants (rows : List Aggregate) : List String :=
  (rows.map (·.group.key.companyId)).eraseDups.insertionSort (· ≤ ·)

/-- `write_aggregations_to_db`. -/
def writeAggregations (runtime : Runtime) (database : Database)
    (rows : List Aggregate) (tables : Tables) : Outcome :=
  match rows.mapM fun row => fromInternal runtime row.group.time with
  | .error raised => ⟨tables, [], some (.exception raised)⟩
  | .ok _ =>
      writeTenants runtime database rows tables (tenants rows)

/-- The job over the readings of a batch. -/
def aggregate (runtime : Runtime) (engine : Engine) (database : Database)
    (granularity : Granularity) (readings : List Reading)
    (tables : Tables) : Outcome :=
  writeAggregations runtime database
    (engine.order (aggregateReadings runtime engine granularity readings))
    tables

end IndustryFlow.Aggregations
