import IndustryFlow.Drift.Scores
import IndustryFlow.Features.Histories
import Mathlib.Data.List.Sort

/-!
# Scores for drift

The drift evaluation scores the rows of a window, and the deployment the rows
of the sample, through the engine that `/predict` scores a reading with.  They
give it what the aggregates and the kill-switch answer when they run.
-/

namespace IndustryFlow.Drift

open FeatureEngine (Definition FeatureConfig Services)
open FeatureVector (Engine History Neutralized Registry
  SensorData slotValue vectorOf)

variable {Time Value : Type}

/-- `MIN_ROWS`. -/
def minRows : Nat := 30

/-- `MAX_PREDICTION_ROWS`. -/
def maxPredictionRows : Nat := 500

/-! ## Rows of a window -/

structure SensorReading (Time : Type) where
  time : Time
  sensorName : String
  value : UInt64

/-- `_even_sample`. -/
def evenSample (rows maxRows : Nat) : List Nat :=
  sampleIndices rows maxRows

section Align

variable [LinearOrder Time]

/-- One reading of the loop of `align_readings`. -/
def addReading (wanted : List String) (rows : List (Time × Row))
    (reading : SensorReading Time) : List (Time × Row) :=
  if reading.sensorName ∈ wanted then
    Dicts.set rows reading.time
      (Dicts.set ((rows.lookup reading.time).getD []) reading.sensorName
        reading.value)
  else rows

/-- `align_readings`, as rows with their times. -/
def alignReadings (readings : List (SensorReading Time))
    (columns : List String) : List (Time × Row) :=
  let wanted := columns.dedup
  let byTime := readings.foldl (addReading wanted) []
  let whole := byTime.filter fun entry => entry.2.length = wanted.length
  let times := (whole.map Prod.fst).mergeSort fun first second =>
    decide (first ≤ second)
  times.map fun time =>
    let row := (byTime.lookup time).getD []
    (time, columns.eraseDups.map fun name =>
      (name, (row.lookup name).getD 0))

/-- The rows at the indices. -/
def rowsAt (rows : List (Time × Row)) (indices : List Nat) :
    List (Time × Row) :=
  indices.filterMap fun index => rows[index]?

end Align

/-! ## Detectors -/

structure DetectorContext where
  equipmentId : Option String
  reconstructionScale : JsonValue

structure DetectionResult where
  score : JsonValue
  isAnomaly : Bool

/-- What a detector ends with when it does not answer. -/
inductive DetectorError where
  | uninterpretable (text : String)
  | raised (text : String)

/-- The detector of a loaded model.  The threshold does not change its
score. -/
structure Detector (Value : Type) where
  detect : List Value → UInt64 → DetectorContext →
    Except DetectorError DetectionResult
  thresholdFree : ∀ features first second context,
    (detect features first context).map DetectionResult.score =
      (detect features second context).map DetectionResult.score

/-- `_THRESHOLD`, which is `0.5`. -/
def gateThreshold : UInt64 := 4602678819172646912

/-- `score_rows`. -/
def scoreRows (detector : Detector Value) (context : DetectorContext)
    (rows : List (List Value)) : Except DetectorError (List JsonValue) :=
  rows.mapM fun features =>
    (detector.detect features gateThreshold context).map
      DetectionResult.score

/-! ## The three callers of the engine -/

/-- An HTTP answer that is a refusal, with its message. -/
structure HttpError where
  status : Nat
  message : String

/-- Why there is no model to score with. -/
inductive LoadError where
  | http (error : HttpError)
  | raised

structure Model where
  status : String
  equipmentId : Option String
  featureConfigId : Option String
  referenceProfile : Option Fields
  reconstructionScale : JsonValue

/-- What the callers read besides the model.  `describe` is the text of an
exception of the engine. -/
structure Platform (Time Value : Type) where
  python : Python
  registry : Registry Value
  history : History Time Value
  companyId : String
  featureConfigs : String → Option FeatureConfig
  describe : FeatureEngine.Raised → String

section Callers

variable (platform : Platform Time Value) (model : Model)

def Platform.servicesAt (time : Time) (equipmentId : Option String) :
    Services Value :=
  platform.history.servicesAt time equipmentId (some platform.companyId)

/-- The row as the engine is given it. -/
def rowData (row : Row) : SensorData :=
  row.map fun cell => (cell.1, .float cell.2)

/-- The rows one after the other; each has its own time. -/
def engineerRows (config : FeatureConfig) (clock : Nat → Time)
    (rows : List Row) : Except FeatureEngine.Raised (List (List Value)) := do
  let engine ← FeatureVector.create platform.registry config
  rows.zipIdx.mapM fun entry =>
    (FeatureVector.transform platform.registry
      (platform.servicesAt (clock entry.2) model.equipmentId)
      (rowData entry.1) engine).answer

/-! ### `/predict` -/

structure InferenceResponse where
  prediction : JsonValue
  isAnomaly : Bool
  degraded : Bool
  neutralizedFeatures : List Json

/-- `sensor_data.get("equipment_id")`. -/
def equipmentOf (data : SensorData) : Option String :=
  match JsonValue.get data "equipment_id" with
  | .null => none
  | value => some (platform.python.str value)

def LoadError.answer : LoadError → HttpError
  | .http error => error
  | .raised => ⟨500, "Inference failed"⟩

def inferenceError : FeatureEngine.Raised → HttpError
  | .refused refusal => ⟨422, platform.describe (.refused refusal)⟩
  | _ => ⟨500, "Inference failed"⟩

def DetectorError.answer : DetectorError → HttpError
  | .uninterpretable _ => ⟨422, "This model's output cannot be interpreted " ++
      "as an anomaly score, so it will not be scored. Returning a guess " ++
      "would risk alerting on a number nobody can justify (ADR-0028)."⟩
  | .raised _ => ⟨500, "Inference failed"⟩

/-- The statuses that `/predict` scores. -/
def deployedStatuses : List String := ["production", "active"]

/-- `predict`, at a time. -/
def predict (loaded : Except LoadError (Detector Value)) (data : SensorData)
    (threshold : UInt64) (time : Time) :
    Except HttpError InferenceResponse := do
  if model.status ∉ deployedStatuses then
    throw ⟨400, "Model status is '" ++ model.status ++ "'. Only " ++
      "'production' or 'active' models can be used for inference."⟩
  let detector ← loaded.mapError LoadError.answer
  match given? model.featureConfigId with
  | none => throw ⟨400, "Model has no feature_config_id. Cannot perform " ++
      "feature engineering."⟩
  | some configId =>
      match platform.featureConfigs configId with
      | none =>
          throw ⟨404, "Feature config " ++ configId ++ " not found"⟩
      | some config => do
          let equipmentId := equipmentOf platform data
          let outcome ← (FeatureVector.inputFeatures platform.registry
            (platform.servicesAt time equipmentId) data config).mapError
              (inferenceError platform)
          let features ← outcome.answer.mapError (inferenceError platform)
          let neutralized := outcome.engine.neutralizedFeatures ++
            outcome.engine.unavailableFeatures
          let result ← (detector.detect features threshold
            ⟨equipmentId, model.reconstructionScale⟩).mapError
              DetectorError.answer
          pure ⟨result.score, result.isAnomaly, neutralized ≠ [],
            neutralized⟩

/-! ### The drift evaluation -/

/-- Why a window has no scores; without a reason the evaluation fails. -/
inductive Unscored where
  | reason (value : JsonValue)
  | raised

/-- A text that says why the model is not scored. -/
def cannotBeScored (text : String) : Unscored :=
  .reason (.str ("the model cannot be scored: " ++ text))

/-- The feature configuration of a model whose window is to be scored. -/
def configToScore : Except Unscored FeatureConfig :=
  let profile := model.referenceProfile.getD []
  if (JsonValue.get profile "prediction_column").truthy = false then
    let reason := JsonValue.get (baselineState (some profile)) "reason"
    .error (.reason (if reason.truthy then reason
      else .str "the baseline holds no prediction scores"))
  else
    match predictionColumnRefusal platform.python profile with
    | .error _ => .error .raised
    | .ok (some refusal) => .error (.reason (.str refusal))
    | .ok none =>
        match given? model.featureConfigId with
        | none => .error (.reason (.str ("the model has no feature config, " ++
            "so its inputs cannot be engineered")))
        | some configId =>
            match platform.featureConfigs configId with
            | none => .error (.reason
                (.str ("feature config " ++ configId ++ " not found")))
            | some config => .ok config

/-- The rows of the window that are scored. -/
def rowsToScore [LinearOrder Time] (config : FeatureConfig)
    (readings : List (SensorReading Time)) :
    Except Unscored (List (Time × Row)) :=
  if config.baseSensors = [] then
    .error (.reason (.str "the feature config names no base sensors"))
  else
    let rows := alignReadings readings config.baseSensors
    if rows.length < minRows then
      .error (.reason (.str ("only " ++ toString rows.length ++ " instants " ++
        "in the window carry every base sensor; need >= " ++
        toString minRows)))
    else .ok (rowsAt rows (evenSample rows.length maxPredictionRows))

def LoadError.unscored : LoadError → Unscored
  | .http error => cannotBeScored error.message
  | .raised => .raised

def DetectorError.unscored : DetectorError → Unscored
  | .uninterpretable text => .reason
      (.str ("the model's output cannot be interpreted: " ++ text))
  | .raised _ => .raised

/-- `_current_predictions`; the clock gives the time of each row's turn. -/
def currentPredictions [LinearOrder Time]
    (loaded : Except LoadError (Detector Value))
    (readings : List (SensorReading Time)) (clock : Nat → Time) :
    Except Unscored (List JsonValue) := do
  let config ← configToScore platform model
  let rows ← rowsToScore config readings
  let detector ← loaded.mapError LoadError.unscored
  let features ← (engineerRows platform model config clock
    (rows.map Prod.snd)).mapError
      fun raised => cannotBeScored (platform.describe raised)
  (scoreRows detector ⟨model.equipmentId, model.reconstructionScale⟩
    features).mapError DetectorError.unscored

/-! ### The deployment -/

/-- A model's sample: its rows with the configuration that they are scored
under, or why there is nothing to score. -/
inductive Sampled where
  | withheld (profile : Fields) (reason : String)
  | rows (profile : Fields) (config : FeatureConfig) (rows : List Row)

/-- What `plan` finds before it builds an engine. -/
def sampleToScore : Except Failure (Option Sampled) :=
  match model.referenceProfile with
  | none | some [] => .ok none
  | some profile =>
      if (JsonValue.get profile "refused").truthy then .ok none
      else
        match (given? model.featureConfigId).bind
            platform.featureConfigs with
        | none => .ok (some (.withheld profile ("the model has no feature " ++
            "configuration, so its sample cannot be scored")))
        | some config => do
            let stripped ← withoutPredictionBaseline profile ""
            match sampleRefusal platform.python (.obj stripped)
                config.baseSensors with
            | .error raised => throw (.raised raised)
            | .ok reason =>
                match given? reason with
                | some reason => pure (some (.withheld profile reason))
                | none =>
                    match acceptedSample profile with
                    | none => throw (.raised .typeError)
                    | some profile =>
                        match sampleRows profile with
                        | none => throw (.raised .typeError)
                        | some [] => pure (some (.withheld profile
                            "the sample has no complete row to score"))
                        | some rows =>
                            pure (some (.rows profile config rows))

/-- A plan with the rows that the detector is to score. -/
structure RowPlan (Value : Type) extends Plan where
  rows : List (List Value)

/-- `plan`. -/
def plan (clock : Nat → Time) :
    Except Failure (Option (RowPlan Value)) := do
  match ← sampleToScore platform model with
  | none => pure none
  | some (.withheld profile reason) =>
      pure (some ⟨⟨profile, some reason⟩, []⟩)
  | some (.rows profile config rows) =>
      match engineerRows platform model config clock rows with
      | .error raised => pure (some ⟨⟨profile, some
          ("the sample cannot be scored: " ++ platform.describe raised)⟩, []⟩)
      | .ok features => pure (some ⟨⟨profile, none⟩, features⟩)

def DetectorError.text : DetectorError → String
  | .uninterpretable text | .raised text => text

/-- `score_in_process`.  The isolated probe scores the same rows and ends with
the same `finish`. -/
def scoreInProcess (planned : RowPlan Value) (detector : Detector Value)
    (derivedAt : String) : Except Failure Fields :=
  match given? planned.reason with
  | some _ => planned.finish platform.python none none derivedAt
  | none =>
      match scoreRows detector
          ⟨model.equipmentId, model.reconstructionScale⟩ planned.rows with
      | .error error =>
          planned.finish platform.python none (some error.text) derivedAt
      | .ok scores =>
          planned.finish platform.python (some scores) none derivedAt

/-- The profile that a deployment stores, if it stores one. -/
def deployedProfile (clock : Nat → Time) (detector : Detector Value)
    (derivedAt : String) : Except Failure (Option Fields) := do
  match ← plan platform model clock with
  | none => pure none
  | some planned =>
      let stored ← scoreInProcess platform model planned detector derivedAt
      pure (some stored)

end Callers

/-! ## Rows and readings -/

section Align

variable [LinearOrder Time] {wanted : List String}
variable {readings : List (SensorReading Time)} {rows : List (Time × Row)}

/-- What the loop has gathered of the readings. -/
structure Gathered (wanted : List String)
    (readings : List (SensorReading Time)) (rows : List (Time × Row)) :
    Prop where
  times : (rows.map Prod.fst).Nodup
  names : ∀ time row, rows.lookup time = some row →
    (row.map Prod.fst).Nodup ∧ row.map Prod.fst ⊆ wanted
  taken : ∀ time row name value, rows.lookup time = some row →
    row.lookup name = some value →
      ∃ reading ∈ readings, reading.time = time ∧
        reading.sensorName = name ∧ reading.value = value

theorem Gathered.addReading (gathered : Gathered wanted readings rows)
    (reading : SensorReading Time) :
    Gathered wanted (readings ++ [reading])
      (addReading wanted rows reading) := by
  have before : ∀ {time : Time} {name : String} {value : UInt64},
      (∃ reading ∈ readings, reading.time = time ∧
        reading.sensorName = name ∧ reading.value = value) →
      ∃ other ∈ readings ++ [reading], other.time = time ∧
        other.sensorName = name ∧ other.value = value := by
    rintro time name value ⟨other, member, is⟩
    exact ⟨other, List.mem_append_left _ member, is⟩
  unfold Drift.addReading
  by_cases named : reading.sensorName ∈ wanted
  · rw [if_pos named]
    have old : ∀ row, (rows.lookup reading.time).getD [] = row →
        (row.map Prod.fst).Nodup ∧ row.map Prod.fst ⊆ wanted ∧
          ∀ name value, row.lookup name = some value →
            ∃ other ∈ readings, other.time = reading.time ∧
              other.sensorName = name ∧ other.value = value := by
      rintro row rfl
      cases found : rows.lookup reading.time with
      | none => exact ⟨List.nodup_nil, List.nil_subset _, nofun⟩
      | some row =>
          obtain ⟨once, within⟩ := gathered.names _ row found
          exact ⟨once, within, fun name value =>
            gathered.taken _ row name value found⟩
    obtain ⟨once, within, taken⟩ := old _ rfl
    refine ⟨Dicts.nodup_set gathered.times _ _, fun time row found => ?_,
      fun time row name value found has => ?_⟩
    · rw [Dicts.lookup_set] at found
      split at found
      · cases found
        refine ⟨Dicts.nodup_set once _ _, ?_⟩
        rw [Dicts.keys_set]
        split
        · exact within
        · exact List.append_subset.mpr
            ⟨within, List.cons_subset.mpr ⟨named, List.nil_subset _⟩⟩
      · exact gathered.names time row found
    · rw [Dicts.lookup_set] at found
      split at found
      · rename_i same
        cases found
        rw [Dicts.lookup_set] at has
        split at has
        · rename_i own
          cases has
          exact ⟨reading, by simp, same.symm, own.symm, rfl⟩
        · exact same ▸ before (taken name value has)
      · exact before (gathered.taken time row name value found has)
  · rw [if_neg named]
    exact ⟨gathered.times, gathered.names,
      fun time row name value found has =>
        before (gathered.taken time row name value found has)⟩

theorem gathered_foldl (wanted : List String)
    (readings : List (SensorReading Time)) :
    Gathered wanted readings (readings.foldl (addReading wanted) []) := by
  induction readings using List.reverseRecOn with
  | nil => exact ⟨List.nodup_nil, nofun, nofun⟩
  | append_singleton readings reading induction =>
      rw [List.foldl_append]
      exact induction.addReading reading

/-- A row has every column, with a value that its sensor reported at its
time. -/
theorem alignReadings_taken {columns : List String} {entry : Time × Row}
    (member : entry ∈ alignReadings readings columns) :
    entry.2.map Prod.fst = columns.eraseDups ∧
      ∀ cell ∈ entry.2, ∃ reading ∈ readings, reading.time = entry.1 ∧
        reading.sensorName = cell.1 ∧ reading.value = cell.2 := by
  have gathered := gathered_foldl columns.dedup readings
  unfold alignReadings at member
  obtain ⟨time, timed, rfl⟩ := List.mem_map.mp member
  obtain ⟨⟨at', row⟩, whole, rfl⟩ := List.mem_map.mp
    (List.mem_mergeSort.mp timed)
  obtain ⟨among, length⟩ := List.mem_filter.mp whole
  have found := Dicts.lookup_of_mem gathered.times among
  obtain ⟨once, within⟩ := gathered.names _ row found
  have full : columns.dedup ⊆ row.map Prod.fst := by
    have perm := (List.subperm_of_subset once within).perm_of_length_le
      (by rw [List.length_map, of_decide_eq_true length])
    exact perm.symm.subset
  refine ⟨?_, fun cell inside => ?_⟩
  · rw [List.map_map]
    exact List.map_id _
  · obtain ⟨name, listed, rfl⟩ := List.mem_map.mp inside
    have key := full (List.mem_dedup.mpr (List.mem_eraseDups.mp listed))
    obtain ⟨⟨name', value⟩, held, rfl⟩ := List.mem_map.mp key
    have has := Dicts.lookup_of_mem once held
    have taken := gathered.taken _ row name' value found has
    simpa only [found, Option.getD_some, has] using taken

end Align

/-! ## The score of a row and the score of its reading -/

section Compare

variable (platform : Platform Time Value) (model : Model)

/-- A request with the row's readings, of the model's equipment. -/
structure SameReading (config : FeatureConfig) (row : Row)
    (data : SensorData) : Prop where
  sensors : ∀ sensor ∈ config.baseSensors,
    JsonValue.get data sensor = JsonValue.get (rowData row) sensor
  equipment : equipmentOf platform data = model.equipmentId

/-- Every row of a window has the score that `/predict` would have answered at
the row's own time. -/
def ScoredAsThen [LinearOrder Time] (readings : List (SensorReading Time))
    (clock : Nat → Time) : Prop :=
  ∀ (detector : Detector Value) (scores : List JsonValue),
    model.status ∈ deployedStatuses →
    currentPredictions platform model (.ok detector) readings clock =
      .ok scores →
    ∃ config rows, configToScore platform model = .ok config ∧
      rowsToScore config readings = .ok rows ∧
      List.Forall₂ (fun row score => ∀ data threshold,
        SameReading platform model config row.2 data →
        (predict platform model (.ok detector) data threshold row.1).map
          InferenceResponse.prediction = .ok score) rows scores

/-- At each row's turn each slot is what it was at the row's own time. -/
def SlotsAsThen [LinearOrder Time] (readings : List (SensorReading Time))
    (clock : Nat → Time) : Prop :=
  ∀ config rows features,
    model.status ∈ deployedStatuses →
    configToScore platform model = .ok config →
    rowsToScore config readings = .ok rows →
    engineerRows platform model config clock (rows.map Prod.snd) =
      .ok features →
    ∀ entry ∈ rows.zipIdx, ∀ data,
      SameReading platform model config entry.1.2 data →
      ∀ definition ∈ config.transformations,
        slotValue platform.registry
            (platform.servicesAt entry.1.1 model.equipmentId) data
            definition =
          slotValue platform.registry
            (platform.servicesAt (clock entry.2) model.equipmentId)
            (rowData entry.1.2) definition

/-- The profile's scores are recorded as derived. -/
def RecordsDerived (profile : Fields) : Prop :=
  ∃ baseline, JsonValue.get profile "prediction_baseline" = .obj baseline ∧
    JsonValue.get baseline "origin" = .str "derived"

/-- No slot of the sample's rows is neutral at the rows' turns. -/
def Computed (config : FeatureConfig) (clock : Nat → Time)
    (rows : List Row) : Prop :=
  ∀ entry ∈ rows.zipIdx, ∀ definition ∈ config.transformations,
    ¬Neutralized platform.registry
      (platform.servicesAt (clock entry.2) model.equipmentId)
      (rowData entry.1) definition

/-- Scores are recorded as derived only of rows without a neutral slot. -/
def DerivedOfComputed (clock : Nat → Time) : Prop :=
  ∀ (detector : Detector Value) (derivedAt : String) (stored : Fields),
    deployedProfile platform model clock detector derivedAt =
      .ok (some stored) →
    RecordsDerived stored →
    ∃ profile config rows, sampleToScore platform model =
        .ok (some (.rows profile config rows)) ∧
      Computed platform model config clock rows

/-- The rows that a deployment can score have no neutral slot. -/
def SampleComputed (clock : Nat → Time) : Prop :=
  ∀ profile config rows features,
    sampleToScore platform model = .ok (some (.rows profile config rows)) →
    engineerRows platform model config clock rows = .ok features →
    Computed platform model config clock rows

end Compare

/-! ## Lists side by side -/

section Lists

variable {First Second Third : Type} {R S : First → Second → Prop}

theorem forall₂_through {T : Second → Third → Prop} {firsts : List First}
    {seconds : List Second} {thirds : List Third}
    (one : List.Forall₂ R firsts seconds)
    (other : List.Forall₂ T seconds thirds) :
    List.Forall₂ (fun first third => ∃ second, R first second ∧
      T second third) firsts thirds := by
  induction one generalizing thirds with
  | nil =>
      cases other
      exact .nil
  | cons head tail induction =>
      cases other with
      | cons next rest => exact .cons ⟨_, head, next⟩ (induction rest)

/-- An item of the first list has one of the second beside it. -/
theorem forall₂_beside {firsts : List First} {seconds : List Second}
    (one : List.Forall₂ R firsts seconds)
    (other : List.Forall₂ S firsts seconds) {first : First}
    (member : first ∈ firsts) :
    ∃ second, R first second ∧ S first second := by
  induction one with
  | nil => cases member
  | cons head tail induction =>
      cases other with
      | cons also rest =>
          rcases List.mem_cons.mp member with rfl | later
          · exact ⟨_, head, also⟩
          · exact induction rest later

theorem forall₂_zipIdx_iff {firsts : List First} {seconds : List Second} :
    List.Forall₂ (fun entry second => R entry.1 second) firsts.zipIdx
      seconds ↔ List.Forall₂ R firsts seconds := by
  have numbered := @List.forall₂_map_left_iff _ _ _ R Prod.fst
    firsts.zipIdx seconds
  rw [List.zipIdx_map_fst] at numbered
  exact numbered.symm

end Lists

/-! ## Vectors and scores -/

section Scores

variable {platform : Platform Time Value} {model : Model}
variable {config : FeatureConfig} {clock : Nat → Time}

theorem mapError_ok_iff {Error Other Answer : Type}
    {action : Except Error Answer} {change : Error → Other}
    {answer : Answer} :
    action.mapError change = .ok answer ↔ action = .ok answer := by
  cases action with
  | error raised => exact iff_of_false nofun nofun
  | ok found => simp [Except.mapError]

theorem map_ok_iff {Error Answer Other : Type}
    {action : Except Error Answer} {change : Answer → Other}
    {answer : Other} :
    action.map change = .ok answer ↔
      ∃ found, action = .ok found ∧ change found = answer := by
  cases action with
  | error raised => exact iff_of_false nofun nofun
  | ok found => simp [Except.map]

theorem engineerRows_ok {rows : List Row} {features : List (List Value)}
    (engineered : engineerRows platform model config clock rows =
      .ok features) :
    List.Forall₂ (fun entry vector => vectorOf platform.registry
      (platform.servicesAt (clock entry.2) model.equipmentId)
      (rowData entry.1) config = .ok vector) rows.zipIdx features := by
  obtain ⟨engine, created, answered⟩ := bind_ok_iff.mp engineered
  refine (mapM_ok_iff.mp answered).imp fun entry vector made => ?_
  exact FeatureVector.vectorOf_ok_iff.mpr ⟨engine, created, made⟩

theorem configToScore_ok
    (configured : configToScore platform model = .ok config) :
    ∃ configId, given? model.featureConfigId = some configId ∧
      platform.featureConfigs configId = some config := by
  unfold configToScore at configured
  dsimp only at configured
  by_cases unscored : (JsonValue.get (model.referenceProfile.getD [])
      "prediction_column").truthy = false
  · rw [if_pos unscored] at configured
    cases configured
  · rw [if_neg unscored] at configured
    cases refusal : predictionColumnRefusal platform.python
        (model.referenceProfile.getD []) with
    | error raised =>
        rw [refusal] at configured
        cases configured
    | ok refusal' =>
        rw [refusal] at configured
        cases refusal' with
        | some reason => cases configured
        | none =>
            cases given : given? model.featureConfigId with
            | none =>
                rw [given] at configured
                cases configured
            | some configId =>
                rw [given] at configured
                dsimp only at configured
                cases found : platform.featureConfigs configId with
                | none =>
                    rw [found] at configured
                    cases configured
                | some bound =>
                    rw [found] at configured
                    cases configured
                    exact ⟨configId, rfl, found⟩

/-- The score of `/predict` is the detector's of the reading's vector. -/
theorem predict_ok_iff {detector : Detector Value} {data : SensorData}
    {threshold : UInt64} {time : Time} {score : JsonValue}
    (deployed : model.status ∈ deployedStatuses)
    (configured : configToScore platform model = .ok config) :
    (predict platform model (.ok detector) data threshold time).map
        InferenceResponse.prediction = .ok score ↔
      ∃ vector, vectorOf platform.registry
          (platform.servicesAt time (equipmentOf platform data)) data config =
            .ok vector ∧
        (detector.detect vector threshold ⟨equipmentOf platform data,
          model.reconstructionScale⟩).map DetectionResult.score =
            .ok score := by
  obtain ⟨configId, given, found⟩ := configToScore_ok configured
  rw [predict, if_neg (not_not_intro deployed)]
  simp only [given, found, map_ok_iff, bind_ok_iff, mapError_ok_iff,
    Except.ok.injEq, vectorOf]
  constructor
  · rintro ⟨response, ⟨loaded, rfl, outcome, made, features, answered, result,
      scored, is⟩, same⟩
    cases is
    exact ⟨features, ⟨outcome, made, answered⟩, result, scored, same⟩
  · rintro ⟨features, ⟨outcome, made, answered⟩, result, scored, same⟩
    exact ⟨_, ⟨detector, rfl, outcome, made, features, answered, result,
      scored, rfl⟩, same⟩

theorem currentPredictions_ok_iff [LinearOrder Time]
    {detector : Detector Value} {readings : List (SensorReading Time)}
    {scores : List JsonValue} :
    currentPredictions platform model (.ok detector) readings clock =
        .ok scores ↔
      ∃ config rows features, configToScore platform model = .ok config ∧
        rowsToScore config readings = .ok rows ∧
        engineerRows platform model config clock (rows.map Prod.snd) =
          .ok features ∧
        scoreRows detector ⟨model.equipmentId, model.reconstructionScale⟩
          features = .ok scores := by
  simp only [currentPredictions, bind_ok_iff, mapError_ok_iff,
    Except.ok.injEq]
  constructor
  · rintro ⟨config, configured, rows, aligned, found, rfl, features,
      engineered, scored⟩
    exact ⟨config, rows, features, configured, aligned, engineered, scored⟩
  · rintro ⟨config, rows, features, configured, aligned, engineered, scored⟩
    exact ⟨config, configured, rows, aligned, detector, rfl, features,
      engineered, scored⟩

/-! ## Rows of a window -/

theorem mem_of_get_rowData {row : Row} {sensor : String}
    (finite : (JsonValue.get (rowData row) sensor).isfinite = .ok true) :
    sensor ∈ row.map Prod.fst := by
  by_contra missing
  have keys : (rowData row).map Prod.fst = row.map Prod.fst := by
    rw [rowData, List.map_map]
    rfl
  rw [JsonValue.get, Dicts.lookup_of_not_mem (keys ▸ missing)] at finite
  cases finite

theorem rowsToScore_names [LinearOrder Time]
    {readings : List (SensorReading Time)} {rows : List (Time × Row)}
    (aligned : rowsToScore config readings = .ok rows)
    {row : Time × Row} (member : row ∈ rows) :
    row.2.map Prod.fst = config.baseSensors.eraseDups := by
  unfold rowsToScore at aligned
  split at aligned
  · cases aligned
  · dsimp only at aligned
    split at aligned
    · cases aligned
    · cases aligned
      obtain ⟨index, -, found⟩ := List.mem_filterMap.mp member
      exact (alignReadings_taken (List.mem_of_getElem? found)).1

/-- A request with a row's readings gives the finite numbers of the row. -/
theorem SameReading.given {row : Row} {data : SensorData}
    (same : SameReading platform model config row data)
    (names : row.map Prod.fst = config.baseSensors.eraseDups) :
    ∀ sensor, (FeatureVector.valueOf (rowData row) sensor).isfinite =
        .ok true →
      FeatureVector.valueOf data sensor =
        FeatureVector.valueOf (rowData row) sensor := by
  intro sensor finite
  cases sensor with
  | str name =>
      have listed := mem_of_get_rowData finite
      rw [names] at listed
      exact same.sensors name (List.mem_eraseDups.mp listed)
  | null => cases finite
  | bool value => cases finite
  | num text zero => cases finite
  | arr items => cases finite
  | obj fields => cases finite

/-! ## Scores as they would have been -/

section ScoredAsThen

variable [LinearOrder Time] {readings : List (SensorReading Time)}

theorem SlotsAsThen.scoredAsThen
    (slots : SlotsAsThen platform model readings clock) :
    ScoredAsThen platform model readings clock := by
  intro detector scores deployed answered
  obtain ⟨config, rows, features, configured, aligned, engineered, scored⟩ :=
    currentPredictions_ok_iff.mp answered
  refine ⟨config, rows, configured, aligned, ?_⟩
  have vectors := engineerRows_ok engineered
  rw [List.zipIdx_map, List.forall₂_map_left_iff] at vectors
  have given := List.forall₂_and_left _ _ |>.mpr
    ⟨fun entry member => member, forall₂_through vectors
      (mapM_ok_iff.mp scored)⟩
  refine forall₂_zipIdx_iff.mp (given.imp ?_)
  rintro entry score ⟨member, vector, made, detected⟩ data threshold same
  refine (predict_ok_iff deployed configured).mpr ⟨vector, ?_, ?_⟩
  · have row : entry.1 ∈ rows := List.fst_mem_of_mem_zipIdx member
    rw [same.equipment]
    exact (FeatureVector.vectorOf_same_iff
      (same.given (rowsToScore_names aligned row)) made).mpr
        (slots config rows features deployed configured aligned engineered
          entry member data same)
  · rw [same.equipment, detector.thresholdFree _ threshold gateThreshold]
    exact detected

open Classical in
/-- `1.0` for one vector and `0.0` for every other. -/
noncomputable def likeness (vector features : List Value) : JsonValue :=
  .float (if features = vector then highestScore else 0)

theorem likeness_eq_iff {vector features : List Value} :
    likeness vector features = likeness vector vector ↔
      features = vector := by
  refine ⟨fun same => ?_, fun same => same ▸ rfl⟩
  by_contra differs
  rw [likeness, likeness, if_neg differs, if_pos rfl] at same
  cases same

/-- The detector that knows one vector. -/
noncomputable def recognise (vector : List Value) : Detector Value where
  detect features _ _ := .ok ⟨likeness vector features, false⟩
  thresholdFree _ _ _ _ := rfl

theorem ScoredAsThen.slotsAsThen
    (scored : ScoredAsThen platform model readings clock) :
    SlotsAsThen platform model readings clock := by
  intro config rows features deployed configured aligned engineered entry
    member data same
  have vectors := engineerRows_ok engineered
  rw [List.zipIdx_map, List.forall₂_map_left_iff] at vectors
  obtain ⟨vector, made, -⟩ := forall₂_beside vectors vectors member
  have detected : scoreRows (recognise vector)
      ⟨model.equipmentId, model.reconstructionScale⟩ features =
        .ok (features.map (likeness vector)) := mapM_ok fun _ _ => rfl
  obtain ⟨config', rows', again, same', scores⟩ :=
    scored (recognise vector) _ deployed (currentPredictions_ok_iff.mpr
      ⟨config, rows, features, configured, aligned, engineered, detected⟩)
  cases configured.symm.trans again
  cases aligned.symm.trans same'
  rw [← forall₂_zipIdx_iff, List.forall₂_map_right_iff] at scores
  obtain ⟨other, found, score⟩ := forall₂_beside vectors scores member
  cases made.symm.trans found
  obtain ⟨again, remade, recognised⟩ :=
    (predict_ok_iff deployed configured).mp (score data gateThreshold same)
  cases likeness_eq_iff.mp (Except.ok.inj recognised)
  rw [same.equipment] at remade
  have row : entry.1 ∈ rows := List.fst_mem_of_mem_zipIdx member
  exact (FeatureVector.vectorOf_same_iff
    (same.given (rowsToScore_names aligned row)) made).mp remade

end ScoredAsThen

/-! ## Scores that are recorded -/

theorem not_recordsDerived_withheld {profile stored : Fields}
    {reason : String}
    (ended : withoutPredictionBaseline profile reason = .ok stored) :
    ¬RecordsDerived stored := by
  rintro ⟨baseline, recorded, origin⟩
  obtain ⟨out, -, is⟩ := bind_ok_iff.mp ended
  cases is
  rw [get_set, if_pos rfl] at recorded
  cases recorded
  cases origin

theorem recordsDerived_derived (profile : Fields) (scores : List JsonValue)
    (derivedAt : String) :
    RecordsDerived (derived profile scores derivedAt) :=
  ⟨_, by rw [derived, get_set, if_pos rfl], rfl⟩

/-- Only scores that are there are recorded. -/
theorem finish_derived {planned : Plan} {python : Python}
    {scores : Option (List JsonValue)} {error : Option String}
    {derivedAt : String} {stored : Fields}
    (ended : planned.finish python scores error derivedAt = .ok stored)
    (recorded : RecordsDerived stored) :
    ∃ score others, scores = some (score :: others) := by
  unfold Plan.finish at ended
  cases withheld : given? planned.reason with
  | some reason =>
      rw [withheld] at ended
      exact absurd recorded (not_recordsDerived_withheld ended)
  | none =>
      rw [withheld] at ended
      dsimp only at ended
      cases failed : given? error with
      | some error =>
          rw [failed] at ended
          exact absurd recorded (not_recordsDerived_withheld ended)
      | none =>
          rw [failed] at ended
          cases scores with
          | none => exact absurd recorded (not_recordsDerived_withheld ended)
          | some scores =>
              cases scores with
              | nil =>
                  exact absurd recorded (not_recordsDerived_withheld ended)
              | cons score others => exact ⟨score, others, rfl⟩

theorem scoreInProcess_derived {planned : RowPlan Value}
    {detector : Detector Value} {derivedAt : String} {stored : Fields}
    (ended : scoreInProcess platform model planned detector derivedAt =
      .ok stored)
    (recorded : RecordsDerived stored) : planned.rows ≠ [] := by
  intro empty
  unfold scoreInProcess at ended
  rw [empty] at ended
  split at ended
  · obtain ⟨score, others, is⟩ := finish_derived ended recorded
    cases is
  · obtain ⟨score, others, is⟩ := finish_derived ended recorded
    cases is

theorem plan_rows {planned : RowPlan Value}
    (is : plan platform model clock = .ok (some planned))
    (some' : planned.rows ≠ []) :
    ∃ profile config rows, sampleToScore platform model =
        .ok (some (.rows profile config rows)) ∧
      engineerRows platform model config clock rows = .ok planned.rows := by
  obtain ⟨sampled, found, rest⟩ := bind_ok_iff.mp is
  cases sampled with
  | none => cases rest
  | some sampled =>
      cases sampled with
      | withheld profile reason =>
          cases rest
          exact absurd rfl some'
      | rows profile config rows =>
          dsimp only at rest
          cases engineered : engineerRows platform model config clock rows with
          | error raised =>
              rw [engineered] at rest
              cases rest
              exact absurd rfl some'
          | ok features =>
              rw [engineered] at rest
              cases rest
              exact ⟨profile, config, rows, found, engineered⟩

theorem SampleComputed.derivedOfComputed
    (computed : SampleComputed platform model clock) :
    DerivedOfComputed platform model clock := by
  intro detector derivedAt stored deployed recorded
  obtain ⟨planned, is, rest⟩ := bind_ok_iff.mp deployed
  cases planned with
  | none => cases rest
  | some planned =>
      obtain ⟨ended, scored, same⟩ := bind_ok_iff.mp rest
      cases same
      obtain ⟨profile, config, rows, found, engineered⟩ :=
        plan_rows is (scoreInProcess_derived scored recorded)
      exact ⟨profile, config, rows, found,
        computed profile config rows _ found engineered⟩

theorem acceptedSample_cells {profile stored : Fields}
    (accepted : acceptedSample profile = some stored) :
    ∃ cells, JsonValue.get stored "sample" = .obj cells := by
  unfold acceptedSample at accepted
  split at accepted
  · simp only [bind, Option.bind_eq_some_iff, pure, Option.some.injEq]
      at accepted
    obtain ⟨first, -, values, -, sample, -, rfl⟩ := accepted
    exact ⟨sample, rfl⟩
  · cases accepted

/-- The rows to score are of an accepted sample. -/
theorem sampleToScore_rows {profile : Fields} {rows : List Row}
    (found : sampleToScore platform model =
      .ok (some (.rows profile config rows))) :
    rows ≠ [] ∧ ∃ cells, JsonValue.get profile "sample" = .obj cells := by
  unfold sampleToScore at found
  split at found
  · cases found
  · cases found
  · rename_i supplied _ _
    split at found
    · cases found
    · split at found
      · cases found
      · rename_i bound _
        obtain ⟨stripped, -, rest⟩ := bind_ok_iff.mp found
        split at rest
        · cases rest
        · split at rest
          · cases rest
          · split at rest
            · cases rest
            · rename_i accepted stores
              split at rest
              · cases rest
              · cases rest
              · rename_i kept nonempty _
                cases rest
                exact ⟨fun empty => nonempty (empty ▸ rfl),
                  acceptedSample_cells stores⟩

/-- A sample that is accepted again and has a complete row is scored. -/
theorem sampleToScore_eq {field : String × JsonValue}
    {fields stripped kept : Fields} {row : Row} {rows : List Row}
    (supplied : model.referenceProfile = some (field :: fields))
    (accepted : (JsonValue.get (field :: fields) "refused").truthy = false)
    (bound : (given? model.featureConfigId).bind platform.featureConfigs =
      some config)
    (strips : withoutPredictionBaseline (field :: fields) "" = .ok stripped)
    (fits : sampleRefusal platform.python (.obj stripped)
      config.baseSensors = .ok none)
    (keeps : acceptedSample (field :: fields) = some kept)
    (complete : sampleRows kept = some (row :: rows)) :
    sampleToScore platform model =
      .ok (some (.rows kept config (row :: rows))) := by
  have none : given? none = none := rfl
  simp only [sampleToScore, supplied, accepted, bound, strips, fits, keeps,
    complete, none, bind, Except.bind, pure, Except.pure,
    Bool.false_eq_true, if_false]

/-- A detector that gives every row the highest score. -/
def highest : Detector Value where
  detect _ _ _ := .ok ⟨.float highestScore, false⟩
  thresholdFree _ _ _ _ := rfl

theorem inRange_highest {features : List (List Value)}
    (present : features ≠ []) :
    InRange (features.map fun _ => JsonValue.float highestScore) where
  some empty := present (List.map_eq_nil_iff.mp empty)
  between value member := by
    obtain ⟨vector, -, rfl⟩ := List.mem_map.mp member
    exact ⟨highestScore, rfl, by decide, by decide⟩

theorem finish_scores {planned : Plan} {python : Python} {cells : Fields}
    {scores : List JsonValue} {derivedAt : String}
    (ready : planned.reason = none)
    (held : JsonValue.get planned.profile "sample" = .obj cells)
    (inRange : InRange scores) :
    planned.finish python (some scores) none derivedAt =
      .ok (derived planned.profile scores derivedAt) := by
  cases scores with
  | nil => exact absurd rfl inRange.some
  | cons score others =>
      have none : given? none = none := rfl
      simp only [Plan.finish, ready, none, withDerivedScores_eq held inRange]

theorem DerivedOfComputed.sampleComputed
    (derives : DerivedOfComputed platform model clock) :
    SampleComputed platform model clock := by
  intro profile config rows features found engineered
  obtain ⟨present, cells, held⟩ := sampleToScore_rows found
  have some' : features ≠ [] := by
    rintro rfl
    have length := (engineerRows_ok engineered).length_eq
    rw [List.length_zipIdx] at length
    exact present (List.length_eq_zero_iff.mp length)
  have scored : scoreRows highest
      ⟨model.equipmentId, model.reconstructionScale⟩ features =
        .ok (features.map fun _ => .float highestScore) :=
    mapM_ok fun _ _ => rfl
  have deployed : deployedProfile platform model clock highest "" =
      .ok (some (derived profile
        (features.map fun _ => .float highestScore) "")) := by
    rw [deployedProfile, plan, found]
    simp only [bind, Except.bind, engineered, pure, Except.pure]
    rw [scoreInProcess, scored]
    simp only [given?]
    rw [finish_scores rfl held (inRange_highest some')]
  obtain ⟨profile', config', rows', again, computed⟩ :=
    derives highest "" _ deployed (recordsDerived_derived _ _ _)
  cases found.symm.trans again
  exact computed

/-- The scores of a window are those that `/predict` would have answered
exactly if each slot is what it was, and the scores of a sample are derived of
computed slots exactly if its rows have no neutral slot. -/
theorem scores_as_predict_iff [LinearOrder Time]
    (platform : Platform Time Value) (model : Model)
    (readings : List (SensorReading Time)) (clock : Nat → Time) :
    (ScoredAsThen platform model readings clock ↔
      SlotsAsThen platform model readings clock) ∧
      (DerivedOfComputed platform model clock ↔
        SampleComputed platform model clock) :=
  ⟨⟨fun scored => scored.slotsAsThen, fun slots => slots.scoredAsThen⟩,
    fun derives => derives.sampleComputed,
    fun computed => computed.derivedOfComputed⟩

end Scores

/-! ## A switch that was turned off -/

/-- A transform of the aggregates. -/
def usualRegistry : Registry Int where
  transforms := [("mean", ⟨fun _ _ _ => .ok 5, true, 0⟩)]
  repr _ := ""

def usualDefinition : Definition :=
  [("name", .str "usual"), ("type", .str "mean"),
    ("sensor", .str "temperature")]

def usualConfig : FeatureConfig :=
  ⟨["temperature"], [usualDefinition]⟩

/-- The switch is turned off at 100. -/
def switchedPlatform : Platform Nat Int where
  python := ⟨fun _ => ""⟩
  registry := usualRegistry
  history := ⟨fun _ => none, fun time => some (decide (time < 100))⟩
  companyId := ""
  featureConfigs _ := some usualConfig
  describe _ := ""

/-- A sample with a score. -/
def scoredProfile : Fields :=
  [("schema_version", .int 2), ("columns", .arr [.str "temperature"]),
    ("prediction_column", .str "prediction_score"),
    ("sample", .obj [("temperature", .arr [.float 0]),
      ("prediction_score", .arr [.float 0])])]

def scoredModel : Model where
  status := "production"
  equipmentId := some "pump"
  featureConfigId := some "features"
  referenceProfile := some scoredProfile
  reconstructionScale := .null

/-- What is stored of it. -/
def keptProfile : Fields :=
  [("schema_version", .int 2), ("method", .str "evidently_sample"),
    ("columns", .arr [.str "temperature"]), ("prediction_column", .null),
    ("n_training_rows", .int 1), ("n_samples", .int 1),
    ("sample", .obj [("temperature", .arr [.float 0])])]

def dayReadings : List (SensorReading Nat) :=
  (List.range 30).map fun time => ⟨time, "temperature", 0⟩

def dayRows : List (Nat × Row) :=
  (List.range 30).map fun time => (time, [("temperature", 0)])

theorem ok_of_toOption {Error Answer : Type} {action : Except Error Answer}
    {answer : Answer} (answered : action.toOption = some answer) :
    action = .ok answer := by
  cases action with
  | error raised => cases answered
  | ok found => exact congrArg Except.ok (Option.some.inj answered)

theorem align_dayReadings :
    alignReadings dayReadings ["temperature"] = dayRows := by
  have byTime : dayReadings.foldl
      (addReading (["temperature"] : List String).dedup) [] = dayRows := by
    decide +kernel
  have whole : (dayRows.filter fun entry => decide (entry.2.length =
      (["temperature"] : List String).dedup.length)).map Prod.fst =
        List.range 30 := by
    decide +kernel
  have sorted : (List.range 30).mergeSort
      (fun first second => decide (first ≤ second)) = List.range 30 :=
    List.mergeSort_of_pairwise (by decide +kernel)
  rw [alignReadings, byTime]
  dsimp only
  rw [whole, sorted]
  decide +kernel

theorem old_rows_scored_anew :
    (¬∀ (readings : List (SensorReading Nat)) (clock : Nat → Nat),
      ScoredAsThen switchedPlatform scoredModel readings clock) ∧
      ¬∀ clock : Nat → Nat,
        DerivedOfComputed switchedPlatform scoredModel clock := by
  constructor
  · intro always
    have slots := (always dayReadings fun _ => 100).slotsAsThen
    have configured : configToScore switchedPlatform scoredModel =
        .ok usualConfig := rfl
    have aligned : rowsToScore usualConfig dayReadings = .ok dayRows := by
      rw [rowsToScore, if_neg nofun]
      dsimp only [usualConfig]
      rw [align_dayReadings]
      exact ok_of_toOption (by decide +kernel)
    have engineered : engineerRows switchedPlatform scoredModel usualConfig
        (fun _ => 100) (dayRows.map Prod.snd) =
          .ok (List.replicate 30 [0]) :=
      ok_of_toOption (by decide +kernel)
    have same := slots usualConfig dayRows _ (by decide) configured aligned
      engineered ((0, [("temperature", 0)]), 0) (by decide +kernel)
      [("temperature", .float 0), ("equipment_id", .str "pump")]
      ⟨fun sensor member => by
        rw [List.mem_singleton.mp member]
        rfl, rfl⟩ usualDefinition (by simp [usualConfig])
    exact absurd (Except.ok.inj same : (5 : Int) = 0) (by decide)
  · intro always
    have computed := (always fun _ => 100).sampleComputed
    have fits : sampleRefusal ⟨fun _ => ""⟩
        (.obj (withheld scoredProfile "")) ["temperature"] = .ok none := by
      decide +kernel
    have found : sampleToScore switchedPlatform scoredModel =
        .ok (some (.rows keptProfile usualConfig
          [[("temperature", 0)]])) :=
      sampleToScore_eq rfl rfl rfl (withoutPredictionBaseline_eq rfl "") fits
        rfl rfl
    have engineered : engineerRows switchedPlatform scoredModel usualConfig
        (fun _ => 100) [[("temperature", 0)]] = .ok [[0]] :=
      ok_of_toOption (by decide +kernel)
    exact computed keptProfile usualConfig _ _ found engineered
      ([("temperature", 0)], 0) (by simp) usualDefinition
      (by simp [usualConfig]) (.inl rfl)

end IndustryFlow.Drift
