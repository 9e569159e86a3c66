import IndustryFlow.Drift.Sample
import Mathlib.Data.List.Induction

/-!
# Derived scores

The scores of a model's detector on its own sample are stored in the sample,
under a name of theirs, and go from it by that name.
-/

namespace IndustryFlow.Drift

/-! ## What is recorded -/

/-- `1.0`, where `SCORE_RANGE` ends; it begins at `0.0`. -/
def highestScore : UInt64 := 4607182418800017408

section Python

variable (python : Python)

/-- One value of `_score_refusal`. -/
def checkScore (value : JsonValue) : Except Stopped Unit :=
  match value with
  | .int _ | .float _ =>
      match value.double? with
      | none => .error (.raised .overflowError)
      | some number =>
          if Doubles.isFinite number = false then
            .error (.refused ("it holds " ++ python.repr value ++
              ", which is not a finite score"))
          else if Doubles.le 0 number && Doubles.le number highestScore then
            .ok ()
          else
            .error (.refused ("it holds " ++ python.repr value ++
              ", outside the detector's declared scale [0, 1] — a label, " ++
              "a raw model output or another quantity, not a detector score"))
  | _ => .error (.refused ("it holds " ++ python.repr value ++
      ", which is not a score"))

/-- `_score_refusal`. -/
def scoreRefusal (values : List JsonValue) : Except Raised (Option String) :=
  if values = [] then .ok (some "it holds no scores")
  else
    match values.forM (checkScore python) with
    | .ok () => .ok none
    | .error (.refused reason) => .ok (some reason)
    | .error (.raised error) => .error error

/-- `prediction_column_refusal`. -/
def predictionColumnRefusal (fields : Fields) :
    Except Raised (Option String) :=
  let name := JsonValue.get fields "prediction_column"
  if name.truthy = false then .ok none
  else
    match JsonValue.get fields "sample" with
    | .obj cells =>
        match column cells name with
        | .arr values => do
            let reason ← scoreRefusal python values
            pure (reason.map fun reason =>
              "the reference profile's prediction column " ++
                python.repr name ++ " is not a baseline: " ++ reason)
        | _ => .ok (some ("the reference profile names prediction column " ++
            python.repr name ++ " but carries no values for it"))
    | _ => .ok (some ("the reference profile names prediction column " ++
        python.repr name ++ " but carries no values for it"))

/-- What a recording ends with when it does not answer. -/
inductive Failure where
  | valueError (text : String)
  | raised (error : Raised)
  | attributeError

/-- Whether a column is none of the prediction. -/
def isFeature (predictionColumn : JsonValue) (name : String) : Bool :=
  match predictionColumn with
  | .str text => name ≠ text
  | _ => true

/-- The columns that are none of the prediction. -/
def featureCells (predictionColumn : JsonValue) (cells : Fields) : Fields :=
  cells.filter fun cell => isFeature predictionColumn cell.1

/-- `profile.get("sample") or {}`, if that has items. -/
def sampleCells? (fields : Fields) : Option Fields :=
  match JsonValue.get fields "sample" with
  | .obj cells => some cells
  | value => if value.truthy then none else some []

/-- `_features_only`. -/
def featuresOnly (fields : Fields) : Except Failure Fields :=
  match sampleCells? fields with
  | none => .error .attributeError
  | some cells =>
      let out := Dicts.without fields "prediction_baseline"
      let out := Dicts.set out "sample" (.obj (featureCells
        (JsonValue.get fields "prediction_column") cells))
      .ok (Dicts.set out "prediction_column" .null)

/-- `out["sample"][name] = value`. -/
def setCell (fields : Fields) (name : String) (value : JsonValue) : Fields :=
  match JsonValue.get fields "sample" with
  | .obj cells => Dicts.set fields "sample" (.obj (Dicts.set cells name value))
  | _ => fields

/-- `[float(v) for v in scores]`. -/
def floats (scores : List JsonValue) : List JsonValue :=
  scores.filterMap fun value => value.double?.map .float

/-- `with_derived_scores`. -/
def withDerivedScores (fields : Fields) (scores : List JsonValue)
    (derivedAt : String) : Except Failure Fields :=
  match scoreRefusal python scores with
  | .error error => .error (.raised error)
  | .ok (some reason) => .error (.valueError
      ("derived scores are not detector scores: " ++ reason))
  | .ok none => do
      let out ← featuresOnly fields
      let out := Dicts.set out "prediction_column"
        (.str defaultPredictionColumn)
      let out := setCell out defaultPredictionColumn (.arr (floats scores))
      pure (Dicts.set out "prediction_baseline" (.obj
        [("origin", .str "derived"), ("derived_at", .str derivedAt)]))

end Python

/-- `without_prediction_baseline`. -/
def withoutPredictionBaseline (fields : Fields) (reason : String) :
    Except Failure Fields := do
  let out ← featuresOnly fields
  pure (Dicts.set out "prediction_baseline" (.obj
    [("origin", .null), ("reason", .str reason)]))

/-- `baseline_state`. -/
def baselineState (profile : Option Fields) : Fields :=
  match profile with
  | none | some [] => [("data_drift", .bool false), ("prediction", .null),
      ("reason", .str ("no feature sample was supplied, so the model cannot " ++
        "be monitored for drift"))]
  | some fields =>
      let refused := JsonValue.get fields "refused"
      if refused.truthy then
        [("data_drift", .bool false), ("prediction", .null),
          ("reason", refused)]
      else
        match JsonValue.get fields "prediction_baseline" with
        | .obj baseline =>
            if (JsonValue.get baseline "origin").same (.str "derived") then
              [("data_drift", .bool true), ("prediction", .str "derived"),
                ("derived_at", JsonValue.get baseline "derived_at"),
                ("reason", .null)]
            else
              [("data_drift", .bool true), ("prediction", .null),
                ("reason", JsonValue.get baseline "reason")]
        | _ =>
            if (JsonValue.get fields "prediction_column").truthy then
              [("data_drift", .bool true), ("prediction", .str "supplied"),
                ("reason", .str ("scores supplied before ADR-0035; derived " ++
                  "at the model's next deployment"))]
            else
              [("data_drift", .bool true), ("prediction", .null),
                ("reason", .str ("prediction scores are derived when the " ++
                  "model is deployed"))]

/-! ## The end of a deployment -/

/-- What a deployment has to record the scores with. -/
structure Plan where
  profile : Fields
  reason : Option String

/-- `Plan.finish`. -/
def Plan.finish (plan : Plan) (python : Python)
    (scores : Option (List JsonValue)) (error : Option String)
    (derivedAt : String) : Except Failure Fields :=
  match given? plan.reason with
  | some reason => withoutPredictionBaseline plan.profile reason
  | none =>
      match given? error, scores with
      | some error, _ => withoutPredictionBaseline plan.profile
          ("the model's detector could not score its sample: " ++ error)
      | none, none | none, some [] => withoutPredictionBaseline plan.profile
          "the model's detector could not score its sample: no scores"
      | none, some scores =>
          match withDerivedScores python plan.profile scores derivedAt with
          | .error (.valueError text) =>
              withoutPredictionBaseline plan.profile text
          | ended => ended

/-! ## Recordings one after the other -/

inductive Recording where
  | derive (scores : List JsonValue) (derivedAt : String)
  | withhold (reason : String)

def Recording.apply (python : Python) (fields : Fields) :
    Recording → Except Failure Fields
  | .derive scores derivedAt =>
      withDerivedScores python fields scores derivedAt
  | .withhold reason => withoutPredictionBaseline fields reason

/-- At least one, and all of them numbers of the scale. -/
structure InRange (scores : List JsonValue) : Prop where
  some : scores ≠ []
  between : ∀ value ∈ scores, ∃ number, value.double? = .some number ∧
    Doubles.le 0 number = true ∧ Doubles.le number highestScore = true

def Recording.Derivable : Recording → Prop
  | .derive scores _ => InRange scores
  | .withhold _ => True

def recordAll (python : Python) (fields : Fields)
    (recordings : List Recording) : Except Failure Fields :=
  recordings.foldlM (Recording.apply python) fields

/-! ## What a recording leaves -/

variable {python : Python} {fields after : Fields} {baseSensors : List String}

@[simp] theorem get_set (fields : Fields) (key other : String)
    (value : JsonValue) :
    JsonValue.get (Dicts.set fields key value) other =
      if other = key then value else JsonValue.get fields other := by
  rw [JsonValue.get, Dicts.lookup_set]
  by_cases same : other = key
  · rw [if_pos same, if_pos same]
    rfl
  · rw [if_neg same, if_neg same]
    rfl

@[simp] theorem get_without (fields : Fields) (key other : String) :
    JsonValue.get (Dicts.without fields key) other =
      if other = key then .null else JsonValue.get fields other := by
  rw [JsonValue.get, Dicts.lookup_without]
  by_cases same : other = key
  · rw [if_pos same, if_pos same]
    rfl
  · rw [if_neg same, if_neg same]
    rfl

/-- Whether an entry is neither the sample nor of the prediction. -/
def isOther (key : String) : Bool :=
  key ∉ ["sample", "prediction_column", "prediction_baseline"]

/-- The entries that no recording writes. -/
def otherEntries (fields : Fields) : Fields :=
  fields.filter fun field => isOther field.1

/-- The columns of the sample that are none of the prediction. -/
def features (fields : Fields) : Fields :=
  match JsonValue.get fields "sample" with
  | .obj cells =>
      featureCells (JsonValue.get fields "prediction_column") cells
  | _ => []

/-- The profile without its prediction. -/
def featurePart (fields : Fields) : Fields × Fields :=
  (otherEntries fields, features fields)

theorem get_otherEntries {key : String} (other : isOther key = true) :
    JsonValue.get (otherEntries fields) key = JsonValue.get fields key := by
  rw [JsonValue.get, otherEntries, Dicts.lookup_filter, if_pos other]
  rfl

theorem otherEntries_set {key : String} (recorded : isOther key = false)
    (value : JsonValue) :
    otherEntries (Dicts.set fields key value) = otherEntries fields :=
  Dicts.filter_set recorded fields value

theorem otherEntries_without {key : String} (recorded : isOther key = false) :
    otherEntries (Dicts.without fields key) = otherEntries fields :=
  Dicts.filter_without recorded fields

theorem columnOf_features {name : String} {cells : Fields}
    (held : JsonValue.get fields "sample" = .obj cells)
    (feature : isFeature (JsonValue.get fields "prediction_column") name =
      true) :
    columnOf fields name =
      (values? (features fields) (.str name)).getD [] := by
  rw [columnOf, features, held]
  have same : column (featureCells
      (JsonValue.get fields "prediction_column") cells) (.str name) =
        column cells (.str name) := by
    rw [column, column, JsonValue.get, featureCells, Dicts.lookup_filter,
      if_pos feature]
    rfl
  simp only [values?, same]

theorem isFeature_iff {predictionColumn : JsonValue} {name : String} :
    isFeature predictionColumn name = true ↔
      predictionColumn ≠ .str name := by
  cases predictionColumn with
  | str text =>
      rw [isFeature, decide_eq_true_iff]
      refine not_congr ⟨fun same => same ▸ rfl, fun same => ?_⟩
      injection same with same
      exact same.symm
  | null => simp [isFeature]
  | bool value => simp [isFeature]
  | int number => simp [isFeature]
  | float bits => simp [isFeature]
  | arr items => simp [isFeature]
  | obj fields => simp [isFeature]

/-- The profile that `_features_only` answers. -/
def stripped (fields : Fields) : Fields :=
  Dicts.set (Dicts.set (Dicts.without fields "prediction_baseline") "sample"
    (.obj (features fields))) "prediction_column" .null

theorem featuresOnly_eq {cells : Fields}
    (held : JsonValue.get fields "sample" = .obj cells) :
    featuresOnly fields = .ok (stripped fields) := by
  rw [featuresOnly, sampleCells?, stripped, features, held]

/-- What is stored without scores. -/
def withheld (fields : Fields) (reason : String) : Fields :=
  Dicts.set (stripped fields) "prediction_baseline" (.obj
    [("origin", .null), ("reason", .str reason)])

theorem withoutPredictionBaseline_eq {cells : Fields}
    (held : JsonValue.get fields "sample" = .obj cells) (reason : String) :
    withoutPredictionBaseline fields reason =
      .ok (withheld fields reason) := by
  rw [withoutPredictionBaseline, featuresOnly_eq held]
  rfl

/-- What is stored with scores. -/
def derived (fields : Fields) (scores : List JsonValue) (derivedAt : String) :
    Fields :=
  Dicts.set
    (Dicts.set
      (Dicts.set (stripped fields) "prediction_column"
        (.str defaultPredictionColumn))
      "sample" (.obj (Dicts.set (features fields) defaultPredictionColumn
        (.arr (floats scores)))))
    "prediction_baseline" (.obj
      [("origin", .str "derived"), ("derived_at", .str derivedAt)])

theorem checkScore_ok {value : JsonValue} {number : UInt64}
    (double : value.double? = some number)
    (least : Doubles.le 0 number = true)
    (most : Doubles.le number highestScore = true) :
    checkScore python value = .ok () := by
  have finite : Doubles.isFinite number = true :=
    Doubles.finite_between least most (by decide)
  have checked : ∀ value : JsonValue, value.double? = some number →
      (match value.double? with
      | none => .error (.raised .overflowError)
      | some number =>
          if Doubles.isFinite number = false then
            .error (.refused ("it holds " ++ python.repr value ++
              ", which is not a finite score"))
          else if Doubles.le 0 number && Doubles.le number highestScore then
            .ok ()
          else
            .error (.refused ("it holds " ++ python.repr value ++
              ", outside the detector's declared scale [0, 1] — a label, " ++
              "a raw model output or another quantity, not a detector score"))
        : Except Stopped Unit) = .ok () := by
    intro value double
    rw [double]
    simp only [finite, least, most, Bool.true_eq_false, Bool.and_true,
      if_false, if_true]
  cases value with
  | int whole => exact checked (.int whole) double
  | float bits => exact checked (.float bits) double
  | null => cases double
  | bool value => cases double
  | str text => cases double
  | arr items => cases double
  | obj fields => cases double

theorem double_of_checkScore {value : JsonValue}
    (passes : checkScore python value = .ok ()) :
    ∃ number, value.double? = some number ∧ Doubles.le 0 number = true ∧
      Doubles.le number highestScore = true := by
  unfold checkScore at passes
  split at passes
  · split at passes
    · cases passes
    · rename_i number double
      split at passes
      · cases passes
      · split at passes
        · rename_i between
          exact ⟨number, double, Bool.and_eq_true_iff.mp between⟩
        · cases passes
  · split at passes
    · cases passes
    · rename_i number double
      split at passes
      · cases passes
      · split at passes
        · rename_i between
          exact ⟨number, double, Bool.and_eq_true_iff.mp between⟩
        · cases passes
  · cases passes

theorem scoreRefusal_none_iff {scores : List JsonValue} :
    scoreRefusal python scores = .ok none ↔ InRange scores := by
  constructor
  · intro accepted
    unfold scoreRefusal at accepted
    by_cases empty : scores = []
    · rw [if_pos empty] at accepted
      cases accepted
    · rw [if_neg empty] at accepted
      refine ⟨empty, fun value member => ?_⟩
      split at accepted
      · rename_i passes
        exact double_of_checkScore (forM_ok_iff.mp passes value member)
      · cases accepted
      · cases accepted
  · intro inRange
    have passes : scores.forM (checkScore python) = .ok () := by
      refine forM_ok_iff.mpr fun value member => ?_
      obtain ⟨number, double, least, most⟩ := inRange.between value member
      exact checkScore_ok double least most
    rw [scoreRefusal, if_neg inRange.some, passes]

theorem withDerivedScores_eq {cells : Fields}
    (held : JsonValue.get fields "sample" = .obj cells)
    {scores : List JsonValue} (inRange : InRange scores)
    (derivedAt : String) :
    withDerivedScores python fields scores derivedAt =
      .ok (derived fields scores derivedAt) := by
  rw [withDerivedScores, scoreRefusal_none_iff.mpr inRange,
    featuresOnly_eq held]
  have sample : JsonValue.get (Dicts.set (stripped fields)
      "prediction_column" (.str defaultPredictionColumn)) "sample" =
        .obj (features fields) := by
    simp [stripped]
  simp only [bind, Except.bind, pure, Except.pure, setCell, sample]
  rfl

/-! ## What recordings keep -/

/-- No input is the prediction, its name is free, and the baseline was not
refused. -/
structure LeavesRoom (fields : Fields) (baseSensors : List String) :
    Prop where
  inputs : ∀ sensor ∈ baseSensors,
    JsonValue.get fields "prediction_column" ≠ .str sensor
  free : defaultPredictionColumn ∉ (features fields).map Prod.fst
  accepted : (JsonValue.get fields "refused").truthy = false

/-- What a recorded profile shares with the one that was accepted. -/
structure Continues (fields after : Fields) (baseSensors : List String) :
    Prop where
  held : ∃ cells, JsonValue.get after "sample" = .obj cells
  others : otherEntries after = otherEntries fields
  features : features after = features fields
  inputs : ∀ sensor ∈ baseSensors,
    JsonValue.get after "prediction_column" ≠ .str sensor

/-- What `baseline_state` answers after a recording. -/
def stateOf : Recording → Fields
  | .derive _ derivedAt =>
      [("data_drift", .bool true), ("prediction", .str "derived"),
        ("derived_at", .str derivedAt), ("reason", .null)]
  | .withhold reason =>
      [("data_drift", .bool true), ("prediction", .null),
        ("reason", .str reason)]

theorem featureCells_null (cells : Fields) :
    featureCells .null cells = cells :=
  List.filter_eq_self.mpr fun _ _ => rfl

theorem otherEntries_stripped :
    otherEntries (stripped fields) = otherEntries fields := by
  rw [stripped, otherEntries_set rfl, otherEntries_set rfl,
    otherEntries_without rfl]

theorem Continues.withheld (continues : Continues fields after baseSensors)
    (reason : String) :
    Continues fields (withheld after reason) baseSensors where
  held := ⟨_, by simp [Drift.withheld, stripped]; rfl⟩
  others := by
    rw [Drift.withheld, otherEntries_set rfl, otherEntries_stripped,
      continues.others]
  features := by
    rw [← continues.features]
    simp [Drift.features, Drift.withheld, stripped, featureCells_null]
  inputs sensor member := by
    simp [Drift.withheld, stripped]

theorem Continues.derived (continues : Continues fields after baseSensors)
    (free : defaultPredictionColumn ∉ (Drift.features fields).map Prod.fst)
    (apart : defaultPredictionColumn ∉ baseSensors)
    (scores : List JsonValue) (derivedAt : String) :
    Continues fields (derived after scores derivedAt) baseSensors where
  held := ⟨_, by simp [Drift.derived]; rfl⟩
  others := by
    rw [Drift.derived, otherEntries_set rfl, otherEntries_set rfl,
      otherEntries_set rfl, otherEntries_stripped, continues.others]
  features := by
    have kept : featureCells (.str defaultPredictionColumn) (Dicts.set
        (Drift.features after) defaultPredictionColumn
          (.arr (floats scores))) = Drift.features fields := by
      rw [continues.features]
      exact (Dicts.without_set _ _ _).trans (Dicts.without_of_not_mem free)
    rw [← kept]
    simp [Drift.features, Drift.derived]
  inputs sensor member := by
    simp only [Drift.derived, get_set]
    rintro ⟨⟩
    exact apart member

/-- A column of an accepted sample holds values. -/
theorem IsSample.columnOf_ne_nil {names : List String} {rows : Nat}
    (sample : IsSample fields baseSensors names rows) {sensor : String}
    (member : sensor ∈ baseSensors) : columnOf fields sensor ≠ [] := by
  intro empty
  have length := sample.length sensor (sample.inputs.mem_iff.mpr member)
  rw [empty] at length
  exact absurd length (Nat.ne_of_lt sample.nonempty)

theorem Continues.columnOf_eq
    (continues : Continues fields after baseSensors)
    (start : Continues fields fields baseSensors) {sensor : String}
    (member : sensor ∈ baseSensors) :
    columnOf after sensor = columnOf fields sensor := by
  obtain ⟨cells, held⟩ := continues.held
  obtain ⟨first, has⟩ := start.held
  rw [columnOf_features held
      (isFeature_iff.mpr (continues.inputs sensor member)),
    columnOf_features has (isFeature_iff.mpr (start.inputs sensor member)),
    continues.features]

theorem Continues.get_eq (continues : Continues fields after baseSensors)
    {key : String} (other : isOther key = true) :
    JsonValue.get after key = JsonValue.get fields key := by
  rw [← get_otherEntries other, continues.others, get_otherEntries other]

theorem Continues.isSample (continues : Continues fields after baseSensors)
    (start : Continues fields fields baseSensors) {names : List String}
    {rows : Nat} (sample : IsSample fields baseSensors names rows) :
    IsSample after baseSensors names rows where
  version := by
    rw [continues.get_eq (by decide)]
    exact sample.version
  listed := by
    rw [continues.get_eq (by decide)]
    exact sample.listed
  held := continues.held
  inputs := sample.inputs
  once := sample.once
  bound := sample.bound
  clean name member := by
    rw [continues.columnOf_eq start (sample.inputs.mem_iff.mp member)]
    exact sample.clean name member
  length name member := by
    rw [continues.columnOf_eq start (sample.inputs.mem_iff.mp member)]
    exact sample.length name member
  nonempty := sample.nonempty

theorem baselineState_some {profile : Fields}
    (accepted : (JsonValue.get profile "refused").truthy = false)
    {baseline : Fields}
    (recorded : JsonValue.get profile "prediction_baseline" =
      .obj baseline) :
    baselineState (some profile) =
      if (JsonValue.get baseline "origin").same (.str "derived") then
        [("data_drift", .bool true), ("prediction", .str "derived"),
          ("derived_at", JsonValue.get baseline "derived_at"),
          ("reason", .null)]
      else
        [("data_drift", .bool true), ("prediction", .null),
          ("reason", JsonValue.get baseline "reason")] := by
  cases profile with
  | nil => cases recorded
  | cons first profile =>
      simp only [baselineState, accepted, recorded, Bool.false_eq_true,
        if_false]

theorem mem_features {name : String} (found : columnOf fields name ≠ [])
    (feature : JsonValue.get fields "prediction_column" ≠ .str name) :
    name ∈ (features fields).map Prod.fst := by
  by_contra missing
  cases held : JsonValue.get fields "sample" with
  | obj cells =>
      refine found ?_
      rw [columnOf_features held (isFeature_iff.mpr feature), values?, column,
        JsonValue.get, Dicts.lookup_of_not_mem missing]
      rfl
  | null => simp [columnOf, held] at found
  | bool value => simp [columnOf, held] at found
  | int number => simp [columnOf, held] at found
  | float bits => simp [columnOf, held] at found
  | str text => simp [columnOf, held] at found
  | arr items => simp [columnOf, held] at found

theorem LeavesRoom.apart (room : LeavesRoom fields baseSensors)
    {names : List String} {rows : Nat}
    (sample : IsSample fields baseSensors names rows) :
    defaultPredictionColumn ∉ baseSensors := fun member =>
  room.free (mem_features (sample.columnOf_ne_nil member)
    (room.inputs _ member))

theorem LeavesRoom.start (room : LeavesRoom fields baseSensors)
    {names : List String} {rows : Nat}
    (sample : IsSample fields baseSensors names rows) :
    Continues fields fields baseSensors :=
  ⟨sample.held, rfl, rfl, room.inputs⟩

/-- One recording. -/
theorem LeavesRoom.step (room : LeavesRoom fields baseSensors)
    {names : List String} {rows : Nat}
    (sample : IsSample fields baseSensors names rows)
    (continues : Continues fields after baseSensors)
    {recording : Recording} (derivable : recording.Derivable) :
    ∃ next, recording.apply python after = .ok next ∧
      Continues fields next baseSensors ∧
      baselineState (some next) = stateOf recording := by
  obtain ⟨cells, held⟩ := continues.held
  have accepted : (JsonValue.get after "refused").truthy = false := by
    rw [continues.get_eq (by decide)]
    exact room.accepted
  cases recording with
  | derive scores derivedAt =>
      refine ⟨_, withDerivedScores_eq held derivable derivedAt,
        continues.derived room.free (room.apart sample) scores derivedAt, ?_⟩
      rw [baselineState_some (by simpa [derived, stripped] using accepted)
        (by rw [derived, get_set, if_pos rfl])]
      rfl
  | withhold reason =>
      refine ⟨_, withoutPredictionBaseline_eq held reason,
        continues.withheld reason, ?_⟩
      rw [baselineState_some (by simpa [withheld, stripped] using accepted)
        (by rw [withheld, get_set, if_pos rfl])]
      rfl

/-- Any number of recordings. -/
theorem LeavesRoom.run (room : LeavesRoom fields baseSensors)
    {names : List String} {rows : Nat}
    (sample : IsSample fields baseSensors names rows)
    (recordings : List Recording)
    (derivable : ∀ recording ∈ recordings, recording.Derivable) :
    ∃ after, recordAll python fields recordings = .ok after ∧
      Continues fields after baseSensors ∧
      ∀ recording, recordings.getLast? = some recording →
        baselineState (some after) = stateOf recording := by
  induction recordings using List.reverseRecOn with
  | nil => exact ⟨fields, rfl, room.start sample, nofun⟩
  | append_singleton recordings last induction =>
      obtain ⟨before, recorded, continues, -⟩ := induction
        fun recording member =>
          derivable recording (List.mem_append_left _ member)
      obtain ⟨after, applied, next, state⟩ := @LeavesRoom.step python _ _ _
        room _ _ sample continues _ (derivable last (by simp))
      refine ⟨after, ?_, next, fun recording final => ?_⟩
      · rw [recordAll, List.foldlM_append]
        rw [recordAll] at recorded
        rw [recorded]
        simp only [bind, Except.bind, List.foldlM_cons, applied]
        rfl
      · rw [List.getLast?_append] at final
        cases final
        exact state

/-- After any recordings the features are what they were, the last recording
says what the baseline is, and the sample would be accepted again. -/
def KeepsFeatures (python : Python) (fields : Fields)
    (baseSensors : List String) : Prop :=
  ∀ recordings : List Recording,
    (∀ recording ∈ recordings, recording.Derivable) →
    ∃ after, recordAll python fields recordings = .ok after ∧
      (∀ sensor ∈ baseSensors,
        columnOf after sensor = columnOf fields sensor) ∧
      featurePart after = featurePart fields ∧
      (∀ recording, recordings.getLast? = some recording →
        baselineState (some after) = stateOf recording) ∧
      ∀ reason, ∃ withheld, withoutPredictionBaseline after reason =
        .ok withheld ∧
          sampleRefusal python (.obj withheld) baseSensors = .ok none

theorem LeavesRoom.keeps (room : LeavesRoom fields baseSensors)
    (accepted : sampleRefusal python (.obj fields) baseSensors = .ok none) :
    KeepsFeatures python fields baseSensors := by
  obtain ⟨names, rows, sample⟩ := sampleRefusal_none_iff.mp accepted
  have start := room.start sample
  intro recordings derivable
  obtain ⟨after, recorded, continues, state⟩ :=
    @LeavesRoom.run python _ _ room _ _ sample recordings derivable
  refine ⟨after, recorded,
    fun sensor member => continues.columnOf_eq start member,
    Prod.ext continues.others continues.features, state, fun reason => ?_⟩
  obtain ⟨cells, held⟩ := continues.held
  exact ⟨_, withoutPredictionBaseline_eq held reason,
    sampleRefusal_none_iff.mpr
      ⟨names, rows, (continues.withheld reason).isSample start sample⟩⟩

theorem recordAll_one {recording : Recording}
    (applied : recording.apply python fields = .ok after) :
    recordAll python fields [recording] = .ok after := by
  rw [recordAll, List.foldlM_cons, applied]
  rfl

theorem features_derived (scores : List JsonValue) (derivedAt : String) :
    features (derived fields scores derivedAt) =
      Dicts.without (features fields) defaultPredictionColumn := by
  have cells : JsonValue.get (derived fields scores derivedAt) "sample" =
      .obj (Dicts.set (features fields) defaultPredictionColumn
        (.arr (floats scores))) := by
    simp [derived]
  have name : JsonValue.get (derived fields scores derivedAt)
      "prediction_column" = .str defaultPredictionColumn := by
    simp [derived]
  rw [features, cells, name]
  exact Dicts.without_set _ _ _

theorem inRange_one : InRange [.int 1] where
  some := nofun
  between value member := by
    rw [List.mem_singleton.mp member]
    exact ⟨highestScore, by decide +kernel, by decide, by decide⟩

/-- An input that is the prediction goes with it. -/
theorem columnOf_withheld_prediction {cells : Fields} {sensor : String}
    (held : JsonValue.get fields "sample" = .obj cells)
    (named : JsonValue.get fields "prediction_column" = .str sensor)
    (reason : String) : columnOf (withheld fields reason) sensor = [] := by
  have sample : JsonValue.get (withheld fields reason) "sample" =
      .obj (features fields) := by
    simp [withheld, stripped]
  have gone : (features fields).lookup sensor = none := by
    rw [features, held, named]
    exact (Dicts.lookup_filter _ _ _).trans (if_neg (by simp [isFeature]))
  rw [columnOf, sample]
  simp [values?, column, JsonValue.get, gone]

theorem KeepsFeatures.room (keeps : KeepsFeatures python fields baseSensors)
    (accepted : sampleRefusal python (.obj fields) baseSensors = .ok none) :
    LeavesRoom fields baseSensors := by
  obtain ⟨names, rows, sample⟩ := sampleRefusal_none_iff.mp accepted
  obtain ⟨cells, held⟩ := sample.held
  have recorded : recordAll python fields [.withhold ""] =
      .ok (withheld fields "") :=
    recordAll_one (withoutPredictionBaseline_eq held "")
  obtain ⟨after, stored, columns, -, state, -⟩ :=
    keeps [.withhold ""] fun recording member => by
      rw [List.mem_singleton.mp member]
      trivial
  cases recorded.symm.trans stored
  constructor
  · intro sensor member named
    refine sample.columnOf_ne_nil member ?_
    rw [← columns sensor member]
    exact columnOf_withheld_prediction held named ""
  · intro taken
    have scored : recordAll python fields [.derive [.int 1] ""] =
        .ok (derived fields [.int 1] "") :=
      recordAll_one
        (@withDerivedScores_eq python _ _ held _ inRange_one "")
    obtain ⟨after, stored, -, part, -⟩ :=
      keeps [.derive [.int 1] ""] fun recording member => by
        rw [List.mem_singleton.mp member]
        exact inRange_one
    cases scored.symm.trans stored
    have same : features (derived fields [.int 1] "") = features fields :=
      (Prod.mk.inj part).2
    rw [features_derived] at same
    rw [← same] at taken
    exact Dicts.not_mem_without _ _ taken
  · by_contra refused
    have truthy := (Bool.not_eq_false _).mp refused
    have same : JsonValue.get (withheld fields "") "refused" =
        JsonValue.get fields "refused" := by
      simp [withheld, stripped]
    have answer := state _ rfl
    cases shape : withheld fields "" with
    | nil =>
        rw [shape] at same
        rw [← same] at truthy
        cases truthy
    | cons first entries =>
        rw [shape] at answer same
        simp [baselineState, same, truthy, stateOf] at answer

/-! ## The samples that are stored -/

/-- Of what is stored of an accepted sample, only an input of the name of the
scores is in their way. -/
theorem leavesRoom_stored_iff {names : List String} {rows : Nat}
    (sample : IsSample fields baseSensors names rows) :
    LeavesRoom (storedSample fields names rows) baseSensors ↔
      defaultPredictionColumn ∉ baseSensors := by
  have keys : (features (storedSample fields names rows)).map Prod.fst =
      names := by
    have cells : features (storedSample fields names rows) =
        names.map fun name => (name, JsonValue.arr (keptValues
          (columnOf fields name)
            (sampleIndices rows defaultMaxSampleRows))) :=
      featureCells_null _
    rw [cells, List.map_map]
    exact List.map_id names
  constructor
  · intro room member
    refine room.free ?_
    rw [keys]
    exact sample.inputs.mem_iff.mpr member
  · intro missing
    refine ⟨fun sensor member => nofun, ?_, rfl⟩
    rw [keys]
    exact fun member => missing (sample.inputs.mem_iff.mp member)

/-- Recordings keep the features of an accepted sample if no input is the
prediction and none has the name of the scores. -/
theorem recordings_keep_iff (python : Python) (fields : Fields)
    (baseSensors : List String)
    (accepted : sampleRefusal python (.obj fields) baseSensors = .ok none) :
    (KeepsFeatures python fields baseSensors ↔
      LeavesRoom fields baseSensors) ∧
      ∃ stored, acceptedSample fields = some stored ∧
        (KeepsFeatures python stored baseSensors ↔
          defaultPredictionColumn ∉ baseSensors) := by
  obtain ⟨names, rows, sample⟩ := sampleRefusal_none_iff.mp accepted
  have again : sampleRefusal python
      (.obj (storedSample fields names rows)) baseSensors = .ok none :=
    sampleRefusal_none_iff.mpr ⟨_, _, storedSample_isSample sample⟩
  refine ⟨⟨fun keeps => keeps.room accepted, fun room => room.keeps accepted⟩,
    _, acceptedSample_eq sample, ?_⟩
  rw [← leavesRoom_stored_iff sample]
  exact ⟨fun keeps => keeps.room again, fun room => room.keeps again⟩

/-- A sensor of the name of the scores. -/
def scoreSample : Fields :=
  [("schema_version", .int 2), ("columns", .arr [.str "prediction_score"]),
    ("sample", .obj [("prediction_score", .arr [.int 5])])]

theorem recordings_keep_scoreSample :
    (KeepsFeatures ⟨fun _ => ""⟩ scoreSample ["prediction_score"] ↔
      LeavesRoom scoreSample ["prediction_score"]) ∧
      ∃ stored, acceptedSample scoreSample = some stored ∧
        (KeepsFeatures ⟨fun _ => ""⟩ stored ["prediction_score"] ↔
          defaultPredictionColumn ∉ ["prediction_score"]) :=
  recordings_keep_iff ⟨fun _ => ""⟩ scoreSample ["prediction_score"]
    (by decide +kernel)

theorem scores_take_a_column :
    ¬∀ (python : Python) (fields : Fields) (baseSensors : List String),
      sampleRefusal python (.obj fields) baseSensors = .ok none →
        KeepsFeatures python fields baseSensors := by
  intro always
  have accepted : sampleRefusal ⟨fun _ => ""⟩ (.obj scoreSample)
      ["prediction_score"] = .ok none := by
    decide +kernel
  exact ((always ⟨fun _ => ""⟩ scoreSample ["prediction_score"]
    accepted).room accepted).free (by decide)

end IndustryFlow.Drift
