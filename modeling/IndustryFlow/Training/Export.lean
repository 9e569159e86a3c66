import Mathlib.Algebra.Order.Ring.Rat
import Mathlib.Data.List.Dedup
import Mathlib.Data.List.Sort
import Mathlib.Data.Prod.Lex
import Mathlib.Tactic.NormNum

/-!
# The export of training data

Ingestion writes a quality code with every reading, 0 for a good one, 1 for an
uncertain one and 2 for a bad one.  The two exports keep the readings of an
equipment whose code is a number not below the requested minimum, so they keep
the bad readings and leave out the good ones.
-/

namespace IndustryFlow.Training

/-! ## The tables of a tenant -/

/-- A row of `sensors`; a UUID is its number, which PostgreSQL orders by. -/
structure Sensor where
  sensorId : Nat
  equipmentId : Nat
  sensorType : String
deriving DecidableEq

/-- A row of `sensor_measurements`; times are in microseconds. -/
structure Measurement where
  time : Int
  sensorId : Nat
  value : UInt64
  unit : Option String
  qualityCode : Option Int
deriving DecidableEq

def Measurement.key (row : Measurement) : Int ×ₗ Nat :=
  toLex (row.time, row.sensorId)

/-- The tables that the exports read, with their keys and references. -/
structure TenantData where
  equipment : List Nat
  sensors : List Sensor
  measurements : List Measurement
  sensorKey : (sensors.map Sensor.sensorId).Nodup
  owned : ∀ sensor ∈ sensors, sensor.equipmentId ∈ equipment
  measurementKey : (measurements.map Measurement.key).Nodup

/-! ## Requests -/

/-- `min_quality`, a double that `Query` takes as at least 0 and at most 1; it
takes a NaN too. -/
inductive Minimum where
  | number (value : ℚ) (bounded : 0 ≤ value ∧ value ≤ 1)
  | nan
deriving DecidableEq

/-- The parameters of `stream_training_data_csv`. -/
structure TrainingQuery where
  equipmentText : String
  /-- The UUID that the text is. -/
  equipmentId : Nat
  lookbackDays : Nat
  lookback : 1 ≤ lookbackDays ∧ lookbackDays ≤ 365
  minQuality : Minimum

/-- The parameters of `get_training_data_for_equipment`. -/
structure LimitedQuery extends TrainingQuery where
  limit : Nat
  limited : 1 ≤ limit ∧ limit ≤ 100000

namespace TrainingQuery

variable (query : TrainingQuery)

/-- `end_time - timedelta(days=lookback_days)`. -/
def startTime (endTime : Int) : Int :=
  endTime - query.lookbackDays * 86400000000

end TrainingQuery

/-! ## The queries -/

/-- A selected row. -/
structure Row where
  time : Int
  sensorId : Nat
  sensorType : String
  value : UInt64
  qualityCode : Int
  unit : Option String
deriving DecidableEq

def Row.key (row : Row) : Int ×ₗ Nat :=
  toLex (row.time, row.sensorId)

/-- `sm.quality_code >= :min_quality`; no number is at least a NaN. -/
def Minimum.admits : Minimum → Int → Bool
  | .number value _, code => value ≤ code
  | .nan, _ => false

/-- The row of the join, if the conditions hold of it; no comparison holds of
a NULL. -/
def selected (equipmentId : Nat) (startTime endTime : Int)
    (minQuality : Minimum) (sm : Measurement) (s : Sensor) : Option Row :=
  if sm.sensorId = s.sensorId ∧ s.equipmentId = equipmentId ∧
      startTime ≤ sm.time ∧ sm.time ≤ endTime then
    (sm.qualityCode.filter minQuality.admits).map fun qualityCode =>
      ⟨sm.time, sm.sensorId, s.sensorType, sm.value, qualityCode, sm.unit⟩
  else none

/-- `data_query`, of both exports. -/
def dataQuery (data : TenantData) (equipmentId : Nat)
    (startTime endTime : Int) (minQuality : Minimum) : List Row :=
  (data.measurements.flatMap fun sm => data.sensors.filterMap
    (selected equipmentId startTime endTime minQuality sm)).insertionSort
      fun row other => row.key ≤ other.key

/-! ## The exports -/

inductive Refusal where
  /-- `HTTPException` 404. -/
  | notFound (detail : String)
  /-- The response does not validate. -/
  | invalidResponse
deriving DecidableEq

/-- A line of the file. -/
structure CsvRow where
  time : Int
  sensorId : Nat
  sensorType : String
  value : UInt64
  qualityCode : Int
  unit : String
deriving DecidableEq

/-- The cells of a row: `row[5] or ''`, the last one. -/
def Row.csv (row : Row) : CsvRow :=
  ⟨row.time, row.sensorId, row.sensorType, row.value, row.qualityCode,
    row.unit.getD ""⟩

structure CsvFile where
  header : List String
  rows : List CsvRow

structure TrainingDataPoint where
  time : Int
  sensorId : Nat
  sensorType : String
  value : UInt64
  qualityCode : Int
  unit : Option String
deriving DecidableEq

def Row.point (row : Row) : TrainingDataPoint :=
  ⟨row.time, row.sensorId, row.sensorType, row.value, row.qualityCode,
    row.unit⟩

structure TrainingDataResponse where
  equipmentId : Nat
  companyId : String
  totalRows : Nat
  dateRangeStart : Int
  dateRangeEnd : Int
  sensors : List String
  data : List TrainingDataPoint

/-- `verify_query`. -/
def verifyEquipment (data : TenantData) (query : TrainingQuery) :
    Except Refusal Unit :=
  if query.equipmentId ∈ data.equipment then .ok ()
  else .error (.notFound
    ("Equipment '" ++ query.equipmentText ++ "' not found"))

/-- `stream_training_data_csv`, at a moment. -/
def streamTrainingDataCsv (data : TenantData) (query : TrainingQuery)
    (now : Int) : Except Refusal CsvFile := do
  verifyEquipment data query
  let endTime := now
  let startTime := query.startTime endTime
  let rows := dataQuery data query.equipmentId startTime endTime
    query.minQuality
  .ok
    { header := ["time", "sensor_id", "sensor_type", "value", "quality_code",
        "unit"]
      rows := rows.map Row.csv }

/-- `get_training_data_for_equipment`, at a moment.  `uuidAsText` is what a
`List[str]` of the response makes of a UUID, if it takes one; the order of the
sensors, which are a set, is left out. -/
def getTrainingDataForEquipment (uuidAsText : Option (Nat → String))
    (companyId : String) (data : TenantData) (query : LimitedQuery)
    (now : Int) : Except Refusal TrainingDataResponse := do
  verifyEquipment data query.toTrainingQuery
  let endTime := now
  let startTime := query.startTime endTime
  let rows := (dataQuery data query.equipmentId startTime endTime
    query.minQuality).take query.limit
  if rows.isEmpty then
    .error (.notFound ("No training data found for equipment '" ++
      query.equipmentText ++ "' in the last " ++
      toString query.lookbackDays ++ " days"))
  else
    let dataPoints := rows.map Row.point
    let uniqueSensors := (dataPoints.map TrainingDataPoint.sensorId).dedup
    match uniqueSensors.mapM fun id => uuidAsText.map (· id) with
    | none => .error .invalidResponse
    | some sensors =>
        .ok
          { equipmentId := query.equipmentId
            companyId
            totalRows := dataPoints.length
            dateRangeStart :=
              (dataPoints.head?.map TrainingDataPoint.time).getD startTime
            dateRangeEnd :=
              (dataPoints.getLast?.map TrainingDataPoint.time).getD endTime
            sensors
            data := dataPoints }

/-! ## The law -/

/-- The row is of a reading of the equipment in the period. -/
def IsReading (data : TenantData) (query : TrainingQuery) (now : Int)
    (row : Row) : Prop :=
  ∃ sm ∈ data.measurements, ∃ s ∈ data.sensors,
    sm.sensorId = s.sensorId ∧ s.equipmentId = query.equipmentId ∧
      query.startTime now ≤ sm.time ∧ sm.time ≤ now ∧
        sm.qualityCode = some row.qualityCode ∧
          row = ⟨sm.time, sm.sensorId, s.sensorType, sm.value,
            row.qualityCode, sm.unit⟩

/-- The quality of the code is at least the requested one: a smaller code is
better. -/
def Minimum.Meets : Minimum → Int → Prop
  | .number value _, code => (code : ℚ) ≤ value
  | .nan, _ => False

/-- The requested quality is the same or better. -/
def Minimum.Raises : Minimum → Minimum → Prop
  | .number higher _, .number value _ => higher ≤ value
  | _, _ => False

/-- The rows that an export gives; 404 gives none. -/
def returned {Answer Given : Type} (rows : Answer → List Given) :
    Except Refusal Answer → Option (List Given)
  | .ok answer => some (rows answer)
  | .error (.notFound _) => some []
  | .error .invalidResponse => none

def csvRows (data : TenantData) (query : TrainingQuery) (now : Int) :
    Option (List CsvRow) :=
  returned CsvFile.rows (streamTrainingDataCsv data query now)

def jsonRows (uuidAsText : Option (Nat → String)) (companyId : String)
    (data : TenantData) (query : LimitedQuery) (now : Int) :
    Option (List TrainingDataPoint) :=
  returned TrainingDataResponse.data
    (getTrainingDataForEquipment uuidAsText companyId data query now)

/-- The exports keep the good readings. -/
def KeepsGood (uuidAsText : Option (Nat → String)) (companyId : String)
    (data : TenantData) (query : LimitedQuery) (now : Int) : Prop :=
  ∃ rows : List Row,
    csvRows data query.toTrainingQuery now = some (rows.map Row.csv) ∧
      jsonRows uuidAsText companyId data query now =
        some ((rows.take query.limit).map Row.point) ∧
      (∀ row, row ∈ rows ↔ IsReading data query.toTrainingQuery now row ∧
        query.minQuality.Meets row.qualityCode) ∧
      rows.Pairwise (fun row other => row.key < other.key) ∧
      (∀ kept ∈ rows, ∀ omitted ∉ rows,
        IsReading data query.toTrainingQuery now omitted →
          kept.qualityCode ≤ omitted.qualityCode) ∧
      ∀ higher, Minimum.Raises higher query.minQuality →
        ∀ others, csvRows data
            { query.toTrainingQuery with minQuality := higher } now =
              some others →
          others ⊆ rows.map Row.csv

/-- Every reading has exactly the requested minimum as its code, and the
response takes the ids of the sensors; or the minimum is a NaN. -/
def Uniform (uuidAsText : Option (Nat → String)) (data : TenantData)
    (query : TrainingQuery) (now : Int) : Prop :=
  ∀ row, IsReading data query now row →
    match query.minQuality with
    | .number value _ => value = row.qualityCode ∧ uuidAsText ≠ none
    | .nan => True

/-! ## What the queries select -/

section

variable {data : TenantData} {query : TrainingQuery} {now : Int}

def readings (data : TenantData) (query : TrainingQuery) (now : Int) :
    List Row :=
  dataQuery data query.equipmentId (query.startTime now) now
    query.minQuality

theorem selected_eq_some {equipmentId : Nat} {startTime endTime : Int}
    {minQuality : Minimum} {sm : Measurement} {s : Sensor} {row : Row} :
    selected equipmentId startTime endTime minQuality sm s = some row ↔
      (sm.sensorId = s.sensorId ∧ s.equipmentId = equipmentId ∧
        startTime ≤ sm.time ∧ sm.time ≤ endTime) ∧
      sm.qualityCode = some row.qualityCode ∧
      minQuality.admits row.qualityCode = true ∧
      row = ⟨sm.time, sm.sensorId, s.sensorType, sm.value, row.qualityCode,
        sm.unit⟩ := by
  unfold selected
  split
  · rename_i joined
    simp only [Option.map_eq_some_iff, Option.filter_eq_some_iff]
    constructor
    · rintro ⟨code, ⟨known, admitted⟩, rfl⟩
      exact ⟨joined, known, admitted, rfl⟩
    · rintro ⟨-, known, admitted, same⟩
      exact ⟨row.qualityCode, ⟨known, admitted⟩, same.symm⟩
  · rename_i apart
    simp [apart]

theorem mem_readings {row : Row} :
    row ∈ readings data query now ↔ IsReading data query now row ∧
      query.minQuality.admits row.qualityCode = true := by
  simp only [readings, dataQuery, List.mem_insertionSort, List.mem_flatMap,
    List.mem_filterMap, selected_eq_some, IsReading]
  constructor
  · rintro ⟨sm, measured, s, owned, ⟨joined, own, start, ended⟩, known,
      admitted, same⟩
    exact ⟨⟨sm, measured, s, owned, joined, own, start, ended, known, same⟩,
      admitted⟩
  · rintro ⟨⟨sm, measured, s, owned, joined, own, start, ended, known, same⟩,
      admitted⟩
    exact ⟨sm, measured, s, owned, ⟨joined, own, start, ended⟩, known,
      admitted, same⟩

theorem IsReading.equipped {row : Row} (read : IsReading data query now row) :
    query.equipmentId ∈ data.equipment := by
  obtain ⟨-, -, s, owned, -, own, -⟩ := read
  rw [← own]
  exact data.owned s owned

/-- An equipment that there is not has no readings. -/
theorem readings_unequipped (missing : query.equipmentId ∉ data.equipment) :
    readings data query now = [] := by
  apply List.eq_nil_iff_forall_not_mem.mpr
  intro row member
  exact missing (mem_readings.mp member).1.equipped

theorem csvRows_eq :
    csvRows data query now = some ((readings data query now).map Row.csv) := by
  unfold csvRows streamTrainingDataCsv verifyEquipment
  split
  · rfl
  · rename_i missing
    rw [readings_unequipped missing]
    rfl

end

section

variable {uuidAsText : Option (Nat → String)} {companyId : String}
variable {data : TenantData} {query : LimitedQuery} {now : Int}

/-- A row that cannot be validated is not given. -/
theorem jsonRows_refused {row : Row} (refused : uuidAsText = none)
    (member : row ∈ readings data query.toTrainingQuery now) :
    jsonRows uuidAsText companyId data query now = none := by
  subst refused
  have equipped := (mem_readings.mp member).1.equipped
  obtain ⟨first, others, split⟩ := List.exists_cons_of_ne_nil
    (List.ne_nil_of_mem member)
  obtain ⟨limit, counted⟩ :=
    Nat.exists_eq_add_of_le' query.limited.1
  unfold readings at split
  simp only [jsonRows, getTrainingDataForEquipment, verifyEquipment, equipped,
    if_true, bind, Except.bind, split, counted, List.take_succ_cons,
    List.isEmpty_cons, Bool.false_eq_true, if_false]
  have refused : ((((first :: others.take limit).map Row.point).map
      TrainingDataPoint.sensorId).dedup.mapM fun id =>
        (none : Option (Nat → String)).map (· id)) = none := by
    have some_id : ((((first :: others.take limit).map Row.point).map
        TrainingDataPoint.sensorId).dedup) ≠ [] := by
      rw [List.map_cons, List.map_cons]
      intro empty
      have inside := List.mem_dedup.mpr (List.mem_cons_self
        (a := first.point.sensorId) (l := ((others.take limit).map
          Row.point).map TrainingDataPoint.sensorId))
      rw [empty] at inside
      cases inside
    obtain ⟨id, ids, listed⟩ := List.exists_cons_of_ne_nil some_id
    rw [listed, List.mapM_cons]
    rfl
  rw [refused]
  rfl

end

/-! ## The exact condition -/

section

variable {uuidAsText : Option (Nat → String)} {companyId : String}
variable {data : TenantData} {query : LimitedQuery} {now : Int}

/-- The code of a reading that an export should give, and does. -/
theorem KeepsGood.uniform
    (keeps : KeepsGood uuidAsText companyId data query now) :
    Uniform uuidAsText data query.toTrainingQuery now := by
  obtain ⟨rows, csv, json, exactly, -⟩ := keeps
  rw [csvRows_eq] at csv
  have same : (readings data query.toTrainingQuery now).map Row.csv =
      rows.map Row.csv := Option.some.inj csv
  intro row read
  cases minimum : query.minQuality with
  | nan => trivial
  | number value bounded =>
      -- a code is in the file exactly where it is not below the minimum
      have code_of {left right : List Row}
          (shown : left.map Row.csv = right.map Row.csv) (member : row ∈ left) :
          ∃ other ∈ right, other.qualityCode = row.qualityCode := by
        have inside := List.mem_map_of_mem (f := Row.csv) member
        rw [shown] at inside
        obtain ⟨other, there, alike⟩ := List.mem_map.mp inside
        exact ⟨other, there, congrArg CsvRow.qualityCode alike⟩
      have least : value ≤ row.qualityCode := by
        by_contra below
        have wanted : row ∈ rows := by
          apply (exactly row).mpr
          rw [minimum]
          exact ⟨read, (not_le.mp below).le⟩
        obtain ⟨other, there, alike⟩ := code_of same.symm wanted
        have admitted := (mem_readings.mp there).2
        rw [minimum, alike] at admitted
        exact below (of_decide_eq_true admitted)
      have taken : row ∈ readings data query.toTrainingQuery now := by
        apply mem_readings.mpr
        rw [minimum]
        exact ⟨read, decide_eq_true least⟩
      have most : (row.qualityCode : ℚ) ≤ value := by
        obtain ⟨other, there, alike⟩ := code_of same taken
        have meets := ((exactly other).mp there).2
        rwa [minimum, alike] at meets
      refine ⟨le_antisymm least most, fun refused => ?_⟩
      rw [jsonRows_refused refused taken] at json
      cases json

end

end IndustryFlow.Training
