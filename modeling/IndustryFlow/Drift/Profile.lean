import IndustryFlow.Dicts
import IndustryFlow.Fallible
import IndustryFlow.JsonValue

/-!
# The drift baseline's format

What `reference_profile` takes from whoever trained a model, and what it keeps
of it: a sample of the training window's columns, evenly spaced.
-/

namespace IndustryFlow.Drift

abbrev Fields : Type :=
  List (String × JsonValue)

structure Python where
  repr : JsonValue → String

/-- `str(value)`. -/
def Python.str (python : Python) : JsonValue → String
  | .str text => text
  | value => python.repr value

inductive Raised where
  | typeError
  | overflowError
deriving DecidableEq

/-- `DEFAULT_MAX_SAMPLE_ROWS`. -/
def defaultMaxSampleRows : Nat := 5000

/-- `DEFAULT_PREDICTION_COLUMN`. -/
def defaultPredictionColumn : String := "prediction_score"

/-- `_sample_indices`. -/
def sampleIndices (rows maxRows : Nat) : List Nat :=
  if rows ≤ maxRows then List.range rows
  else (List.range maxRows).map fun i => i * (rows - 1) / (maxRows - 1)

/-- `sorted(names)`. -/
def sorted (names : List String) : List String :=
  names.mergeSort fun first second => decide (first ≤ second)

/-! ## What is refused -/

/-- `supplied_scores_refusal`. -/
def suppliedScoresRefusal (fields : Fields) : Option String :=
  if (JsonValue.get fields "prediction_column").truthy ||
      (JsonValue.get fields "prediction_baseline").truthy then
    some ("the sample carries prediction scores; the platform derives them " ++
      "from the sample through the model's detector when it is deployed " ++
      "(ADR-0035 dec 2)")
  else none

/-- What ends a check of a sample. -/
inductive Stopped where
  | refused (reason : String)
  | raised (error : Raised)

section Check

variable (python : Python)

def checkValue (name value : JsonValue) : Except Stopped Unit :=
  match value with
  | .null => .ok ()
  | value =>
      match value.isfinite with
      | .error .overflow => .error (.raised .overflowError)
      | .ok true => .ok ()
      | .ok false => .error (.refused ("the sample's column " ++
          python.repr name ++ " holds " ++ python.repr value ++
          ", which is not a number"))

/-- `sample.get(name)`. -/
def column (cells : Fields) : JsonValue → JsonValue
  | .str name => JsonValue.get cells name
  | _ => .null

/-- The length of a column that passes. -/
def checkColumn (cells : Fields) (name : JsonValue) : Except Stopped Nat :=
  match column cells name with
  | .arr (value :: values) => do
      (value :: values).forM (checkValue python name)
      pure (values.length + 1)
  | _ => .error (.refused
      ("the sample holds no values for " ++ python.repr name))

/-- `len(set(values)) == len(values)`. -/
def distinct : List JsonValue → Bool
  | [] => true
  | value :: values => !values.any value.same && distinct values

def notInputs (columns : List JsonValue) (baseSensors : List String) :
    Stopped :=
  .refused ("the sample's columns " ++
    python.repr (.arr ((sorted (columns.map python.str)).map .str)) ++
    " are not the feature configuration's inputs " ++
    python.repr (.arr ((sorted baseSensors).map .str)))

def checkSample (profile : JsonValue) (baseSensors : List String) :
    Except Stopped Unit :=
  match profile with
  | .obj fields => do
      let version := JsonValue.get fields "schema_version"
      if version.same (.int 2) = false then
        throw (.refused ("the sample's schema_version is " ++
          python.repr version ++ ", not 2"))
      match JsonValue.get fields "columns",
          JsonValue.get fields "sample" with
      | .arr columns, .obj cells => do
          if baseSensors = [] then
            throw (.refused ("the model is bound to no feature " ++
              "configuration with base sensors, so a sample matches nothing"))
          if sorted (columns.map python.str) ≠ sorted baseSensors then
            throw (notInputs python columns baseSensors)
          if columns.all JsonValue.hashable = false then
            throw (.raised .typeError)
          if distinct columns = false then
            throw (notInputs python columns baseSensors)
          let lengths ← columns.mapM (checkColumn python cells)
          if lengths.dedup.length ≠ 1 then
            throw (.refused ("the sample's columns differ in length: " ++
              python.repr (.arr (lengths.dedup.mergeSort.map
                fun length : Nat => .int length))))
      | _, _ => throw (.refused "the sample has no columns and values")
  | _ => throw (.refused "the sample is not an object")

/-- `sample_refusal`. -/
def sampleRefusal (profile : JsonValue) (baseSensors : List String) :
    Except Raised (Option String) :=
  match checkSample python profile baseSensors with
  | .ok () => .ok none
  | .error (.refused reason) => .ok (some reason)
  | .error (.raised error) => .error error

end Check

/-! ## What is kept -/

/-- The values under a name. -/
def values? (cells : Fields) (name : JsonValue) : Option (List JsonValue) :=
  match column cells name with
  | .arr values => some values
  | _ => none

/-- The name and values of a column of the stored sample. -/
def keptColumn (cells : Fields) (indices : List Nat) (name : JsonValue) :
    Option (String × JsonValue) :=
  match name with
  | .str text => do
      let values ← values? cells name
      let kept ← indices.mapM fun index => values[index]?
      pure (text, .arr kept)
  | _ => none

/-- `n_training_rows` as it is stored. -/
def trainingRows (fields : Fields) (supplied : Nat) : Int :=
  match JsonValue.get fields "n_training_rows" with
  | .int rows => if rows < supplied then supplied else rows
  | _ => supplied

/-- `accepted_sample`, of a profile with columns and values. -/
def acceptedSample (fields : Fields) : Option Fields :=
  match JsonValue.get fields "columns", JsonValue.get fields "sample" with
  | .arr columns, .obj cells => do
      let first ← columns.head?
      let supplied := (← values? cells first).length
      let indices := sampleIndices supplied defaultMaxSampleRows
      let sample ← columns.mapM (keptColumn cells indices)
      pure [("schema_version", .int 2), ("method", .str "evidently_sample"),
        ("columns", .arr columns), ("prediction_column", .null),
        ("n_training_rows", .int (trainingRows fields supplied)),
        ("n_samples", .int indices.length), ("sample", .obj sample)]
  | _, _ => none

/-- `refused_baseline`. -/
def refusedBaseline (reason : String) : Fields :=
  [("schema_version", .int 2), ("refused", .str reason)]

abbrev Row : Type :=
  List (String × UInt64)

/-- The values of the columns in one row. -/
def rowAt (cells : Fields) (columns : List JsonValue) (index : Nat) :
    Option (List (String × JsonValue)) :=
  columns.mapM fun name =>
    match name with
    | .str text => do
        let values ← values? cells name
        let value ← values[index]?
        pure (text, value)
    | _ => none

def numberCell (cell : String × JsonValue) : Option (String × UInt64) :=
  cell.2.double?.map fun number => (cell.1, number)

/-- A row without a missing value, as numbers. -/
def complete? (row : List (String × JsonValue)) : Option (Option Row) :=
  if row.any fun cell => cell.2.isNull then some none
  else (row.mapM numberCell).map some

/-- `sample_rows`, of a profile with columns and values. -/
def sampleRows (fields : Fields) : Option (List Row) :=
  match JsonValue.get fields "columns", JsonValue.get fields "sample" with
  | .arr [], _ => some []
  | .arr (first :: columns), .obj cells => do
      let values ← values? cells first
      let rows ← (List.range values.length).mapM fun index => do
        let row ← rowAt cells (first :: columns) index
        complete? row
      pure (rows.filterMap id)
  | _, _ => none

/-! ## The sample of a notebook -/

/-- `_clean_column`. -/
def cleanColumn (values : List UInt64) (indices : List Nat) :
    List JsonValue :=
  indices.filterMap fun index => values[index]?.map fun bits =>
    if Doubles.isFinite bits then .float bits else .null

/-- `feature_sample`, and `build_reference_profile` on the platform's side;
`none` is a `ValueError`. -/
def featureSample (data : List (String × List UInt64)) (maxSampleRows : Nat) :
    Option Fields :=
  match data with
  | [] => none
  | first :: _ =>
      let rows := first.2.length
      if maxSampleRows < 1 then none
      else if data.any fun entry => entry.2.length ≠ rows then none
      else if rows = 0 then none
      else
        let indices := sampleIndices rows maxSampleRows
        some [("schema_version", .int 2),
          ("method", .str "evidently_sample"),
          ("columns", .arr (data.map fun entry => .str entry.1)),
          ("prediction_column", .null), ("n_training_rows", .int rows),
          ("n_samples", .int indices.length),
          ("sample", .obj (data.map fun entry =>
            (entry.1, .arr (cleanColumn entry.2 indices))))]

end IndustryFlow.Drift
