import Mathlib.Data.Multiset.MapFold
import Mathlib.Data.Prod.Lex
import IndustryFlow.Frames

/-!
# Window features of a training frame

`offline_baseline`: the aggregation windows of the contract, and the columns
that training computes from a frame of history.  Times are in nanoseconds.

A frame has one column of labels, the group its rows belong to, the time, and
any number of columns of numbers.  Two rows may have the same label, as in a
frame put together from others.  Frames always have their time and group
columns here, so the checks for those two are left out.
-/

namespace IndustryFlow.Features

/-! ## The window contract -/

/-- One aggregation granularity. -/
structure Window where
  table : String
  widthSeconds : Nat
  latenessSeconds : Nat
deriving DecidableEq

/-- `WINDOWS`. -/
def windows : List (String × Window) :=
  [("1min", ⟨"sensor_aggregations_1min", 60, 120⟩),
    ("5min", ⟨"sensor_aggregations_5min", 300, 600⟩),
    ("1hour", ⟨"sensor_aggregations_1hour", 3600, 900⟩)]

def window? (granularity : String) : Option Window :=
  windows.lookup granularity

/-- `latest_emitted_window`. -/
def latestEmittedWindow (window : Window) (epochSeconds : Int) : Int :=
  (epochSeconds - window.latenessSeconds) / window.widthSeconds - 1

def second : Int := 1000000000

/-- `_epoch_seconds`. -/
def epochSeconds (time : Int) : Int :=
  time / second

/-- `window_index`. -/
def windowIndex (window : Window) (time : Int) : Int :=
  epochSeconds time / window.widthSeconds

/-- `latest_written_window`. -/
def latestWrittenWindow (window : Window) (time : Int) : Int :=
  latestEmittedWindow window (epochSeconds time)

namespace Window

/-- The start of the window with this index. -/
def start (window : Window) (index : Int) : Int :=
  index * (window.widthSeconds * second)

/-- The sample at this time belongs to the window. -/
def Covers (window : Window) (index time : Int) : Prop :=
  window.start index ≤ time ∧ time < window.start (index + 1)

instance (window : Window) (index time : Int) :
    Decidable (window.Covers index time) :=
  inferInstanceAs (Decidable (_ ∧ _))

/-- The watermark at `now` has passed the end of the window. -/
def Closed (window : Window) (index now : Int) : Prop :=
  window.start (index + 1) ≤ now - window.latenessSeconds * second

instance (window : Window) (index now : Int) :
    Decidable (window.Closed index now) :=
  inferInstanceAs (Decidable (_ ≤ _))

end Window

section Window

variable {window : Window}

end Window

/-! ## Features -/

/-- The statistics of `_STATS`. -/
inductive StatType where
  | deviationFromWindowMean
  | windowMean
  | windowStd
deriving DecidableEq

namespace StatType

def all : List StatType :=
  [deviationFromWindowMean, windowMean, windowStd]

def text : StatType → String
  | deviationFromWindowMean => "deviation_from_window_mean"
  | windowMean => "window_mean"
  | windowStd => "window_std"

def suffix : StatType → String
  | deviationFromWindowMean => "_deviation"
  | windowMean => "_window_mean"
  | windowStd => "_window_std"

def ofText? (text : String) : Option StatType :=
  all.find? (·.text = text)

@[simp] theorem ofText?_text (stat : StatType) :
    ofText? stat.text = some stat := by
  cases stat <;> rfl

theorem ofText?_eq_some {text : String} {stat : StatType} :
    ofText? text = some stat ↔ stat.text = text := by
  constructor
  · intro found
    simpa using List.find?_some found
  · rintro rfl
    exact ofText?_text stat

theorem mem_filterMap {stats : List String} {stat : StatType} :
    stat ∈ stats.filterMap ofText? ↔ stat.text ∈ stats := by
  simp [List.mem_filterMap, ofText?_eq_some]

end StatType

/-- An entry of `transformations`, with the parameters that a statistic
reads. -/
structure Transformation where
  name : String
  type : String
  sensor : Option String
  sensors : List String
  statType : Option String
  granularity : Option String
deriving DecidableEq

/-- The name of the feature without one of its own. -/
def featureName (sensor : String) (stat : StatType) : String :=
  sensor ++ stat.suffix

/-- `feature_config`. -/
def featureConfig (sensor : String) (stat : StatType) (granularity : String)
    (name : Option String) : Transformation where
  name := match name with
    | none | some "" => featureName sensor stat
    | some given => given
  type := "statistical"
  sensor := some sensor
  sensors := []
  statType := some stat.text
  granularity := some granularity

/-! ## Frames -/

structure Row (Label Group Value : Type) where
  label : Label
  group : Group
  time : Int
  values : String → Value

/-- The mean and the deviation of a window's samples; the deviation may be
undefined. -/
structure Statistics (Value : Type) where
  mean : Multiset Value → Value
  std : Multiset Value → Option Value

/-- A row of the aggregates of one sensor. -/
structure WindowRow (Group Value : Type) where
  group : Group
  window : Int
  mean : Value
  std : Option Value

inductive FrameError where
  /-- Unknown granularity; expected one of these. -/
  | unknownGranularity (granularity : String) (expected : List String)
  /-- Unknown stat types. -/
  | unknownStats (unknown : List String)
  /-- `reindex` on an axis with duplicate labels. -/
  | duplicateLabels
deriving DecidableEq

section Frames

variable {Label Group Value : Type} [DecidableEq Label] [LinearOrder Group]
variable [Zero Value] [Sub Value]

abbrev Frame (Label Group Value : Type) : Type :=
  List (Row Label Group Value)

/-- `sort_values(group_cols + [timestamp_col])`. -/
def sortFrame (sorting : Frames.Sorting) (frame : Frame Label Group Value) :
    Frame Label Group Value :=
  sorting.sortBy (fun row => toLex (row.group, row.time)) frame

/-- The samples of a group in a window. -/
def samples (window : Window) (sensor : String)
    (frame : Frame Label Group Value) (group : Group) (index : Int) :
    Multiset Value :=
  ((frame.filter fun row =>
    row.group = group ∧ windowIndex window row.time = index).map
      fun row => row.values sensor : List Value)

/-- The aggregates of the groups and windows that hold samples; in which order
`groupby` lists them is left to the sort. -/
def perWindow (sorting : Frames.Sorting) (statistics : Statistics Value)
    (window : Window) (sensor : String) (frame : Frame Label Group Value) :
    List (WindowRow Group Value) :=
  sorting.sortBy WindowRow.window
    ((frame.map fun row =>
      (row.group, windowIndex window row.time)).dedup.map fun key =>
        let samples := samples window sensor frame key.1 key.2
        ⟨key.1, key.2, statistics.mean samples, statistics.std samples⟩)

/-- A row of the left side of the join. -/
structure Keyed (Group : Type) where
  group : Group
  closed : Int
  pos : Nat

/-- Each row's aggregate, in the order of the frame: the rows are sorted by
their closed window for the join and then by their position. -/
def aligned (sorting : Frames.Sorting) (window : Window)
    (windows : List (WindowRow Group Value))
    (frame : Frame Label Group Value) :
    List (Option (WindowRow Group Value)) :=
  let rows := frame.zipIdx.map fun entry => Keyed.mk entry.1.group
    (latestWrittenWindow window entry.1.time) entry.2
  let joined := (sorting.sortBy Keyed.closed rows).map fun row =>
    (row, Frames.asOf WindowRow.window
      (fun found => decide (found.group = row.group)) windows row.closed)
  (sorting.sortBy (fun entry => entry.1.pos) joined).map Prod.snd

/-- The value of a feature: a missing aggregate gives the neutral value. -/
def column (stat : StatType) (current : Value)
    (found : Option (WindowRow Group Value)) : Value :=
  match stat with
  | .deviationFromWindowMean =>
      ((found.map WindowRow.mean).map fun mean => current - mean).getD 0
  | .windowMean => (found.map WindowRow.mean).getD 0
  | .windowStd => (found.bind WindowRow.std).getD 0

def Row.set (row : Row Label Group Value) (name : String) (value : Value) :
    Row Label Group Value :=
  { row with values := Function.update row.values name value }

/-- The loop over the statistics of one sensor. -/
def addStats (sensor granularity : String)
    (baselines : List (Option (WindowRow Group Value))) :
    List StatType → Frame Label Group Value →
      Frame Label Group Value × List Transformation
  | [], frame => (frame, [])
  | stat :: stats, frame =>
      let added := List.zipWith (fun row found => row.set
        (featureName sensor stat) (column stat (row.values sensor) found))
          frame baselines
      let rest := addStats sensor granularity baselines stats added
      (rest.1, featureConfig sensor stat granularity none :: rest.2)

/-- The loop over the sensors. -/
def addSensors (sorting : Frames.Sorting) (statistics : Statistics Value)
    (window : Window) (granularity : String) (stats : List StatType) :
    List String → Frame Label Group Value →
      Frame Label Group Value × List Transformation
  | [], frame => (frame, [])
  | sensor :: sensors, frame =>
      let windows := perWindow sorting statistics window sensor frame
      let baselines := aligned sorting window windows frame
      let added := addStats sensor granularity baselines stats frame
      let rest := addSensors sorting statistics window granularity stats
        sensors added.1
      (rest.1, added.2 ++ rest.2)

/-- The set of the names, sorted. -/
def inOrder (names : List String) : List String :=
  names.dedup.mergeSort fun first second => decide (first ≤ second)

/-- `add_window_features`. -/
def addWindowFeatures (sorting : Frames.Sorting)
    (statistics : Statistics Value) (frame : Frame Label Group Value)
    (sensors : List String) (granularity : String) (stats : List String) :
    Except FrameError (Frame Label Group Value × List Transformation) := do
  let some window := window? granularity
    | throw (.unknownGranularity granularity
        (inOrder (windows.map Prod.fst)))
  let unknown := stats.filter fun text => (StatType.ofText? text).isNone
  if unknown ≠ [] then throw (.unknownStats (inOrder unknown))
  let sorted := sortFrame sorting frame
  let added := addSensors sorting statistics window granularity
    (stats.filterMap StatType.ofText?) sensors sorted
  let some restored := Frames.reindex Row.label added.1
      (frame.map Row.label)
    | throw .duplicateLabels
  pure (restored, added.2)

/-! ## The call, for any column -/

section Columns

variable (column : StatType → Value → Option (WindowRow Group Value) → Value)

/-- The loop over the statistics of one sensor. -/
def addStatsBy (sensor granularity : String)
    (baselines : List (Option (WindowRow Group Value))) :
    List StatType → Frame Label Group Value →
      Frame Label Group Value × List Transformation
  | [], frame => (frame, [])
  | stat :: stats, frame =>
      let added := List.zipWith (fun row found => row.set
        (featureName sensor stat) (column stat (row.values sensor) found))
          frame baselines
      let rest := addStatsBy sensor granularity baselines stats added
      (rest.1, featureConfig sensor stat granularity none :: rest.2)

/-- The loop over the sensors. -/
def addSensorsBy (sorting : Frames.Sorting) (statistics : Statistics Value)
    (window : Window) (granularity : String) (stats : List StatType) :
    List String → Frame Label Group Value →
      Frame Label Group Value × List Transformation
  | [], frame => (frame, [])
  | sensor :: sensors, frame =>
      let windows := perWindow sorting statistics window sensor frame
      let baselines := aligned sorting window windows frame
      let added := addStatsBy column sensor granularity baselines stats frame
      let rest := addSensorsBy sorting statistics window granularity stats
        sensors added.1
      (rest.1, added.2 ++ rest.2)

/-- `add_window_features`, with what it makes of a value and an aggregate. -/
def addWindowFeaturesBy (sorting : Frames.Sorting)
    (statistics : Statistics Value) (frame : Frame Label Group Value)
    (sensors : List String) (granularity : String) (stats : List String) :
    Except FrameError (Frame Label Group Value × List Transformation) := do
  let some window := window? granularity
    | throw (.unknownGranularity granularity
        (inOrder (windows.map Prod.fst)))
  let unknown := stats.filter fun text => (StatType.ofText? text).isNone
  if unknown ≠ [] then throw (.unknownStats (inOrder unknown))
  let sorted := sortFrame sorting frame
  let added := addSensorsBy column sorting statistics window granularity
    (stats.filterMap StatType.ofText?) sensors sorted
  let some restored := Frames.reindex Row.label added.1
      (frame.map Row.label)
    | throw .duplicateLabels
  pure (restored, added.2)

end Columns

omit [DecidableEq Label] [LinearOrder Group] in
theorem addStats_eq_by (sensor granularity : String)
    (baselines : List (Option (WindowRow Group Value)))
    (stats : List StatType) (frame : Frame Label Group Value) :
    addStats sensor granularity baselines stats frame =
      addStatsBy column sensor granularity baselines stats frame := by
  induction stats generalizing frame with
  | nil => rfl
  | cons stat stats induction =>
      rw [addStats, addStatsBy, induction]

omit [DecidableEq Label] in
theorem addSensors_eq_by (sorting : Frames.Sorting)
    (statistics : Statistics Value) (window : Window) (granularity : String)
    (stats : List StatType) (sensors : List String)
    (frame : Frame Label Group Value) :
    addSensors sorting statistics window granularity stats sensors frame =
      addSensorsBy column sorting statistics window granularity stats sensors
        frame := by
  induction sensors generalizing frame with
  | nil => rfl
  | cons sensor sensors induction =>
      rw [addSensors, addSensorsBy, addStats_eq_by, induction]

/-- The call on a frame where nothing is missing. -/
theorem addWindowFeatures_eq_by (sorting : Frames.Sorting)
    (statistics : Statistics Value) (frame : Frame Label Group Value)
    (sensors : List String) (granularity : String) (stats : List String) :
    addWindowFeatures sorting statistics frame sensors granularity stats =
      addWindowFeaturesBy column sorting statistics frame sensors granularity
        stats := by
  unfold addWindowFeatures addWindowFeaturesBy
  cases window? granularity with
  | none => rfl
  | some window =>
      simp only [addSensors_eq_by]

/-! ## Each row by itself -/

/-- The aggregate a row is joined with. -/
def joined (window : Window) (windows : List (WindowRow Group Value))
    (group : Group) (time : Int) : Option (WindowRow Group Value) :=
  Frames.asOf WindowRow.window (fun found => decide (found.group = group))
    windows (latestWrittenWindow window time)

/-- The columns of a row whose aggregate is `found`. -/
def engineer (sensor : String) (found : Option (WindowRow Group Value)) :
    List StatType → Row Label Group Value → Row Label Group Value
  | [], row => row
  | stat :: stats, row => engineer sensor found stats
      (row.set (featureName sensor stat)
        (column stat (row.values sensor) found))

section Columns

variable {column : StatType → Value → Option (WindowRow Group Value) → Value}
variable {sensor : String}

end Columns

section Engineer

variable {sensor : String} {found : Option (WindowRow Group Value)}

end Engineer

end Frames

end IndustryFlow.Features
