import IndustryFlow.Features.Serving
import Mathlib.Algebra.BigOperators.Group.Multiset.Defs
import Mathlib.Algebra.Group.Int.Defs
import Mathlib.Algebra.Ring.Int.Defs
import Mathlib.Data.Int.Order.Basic
import Mathlib.Data.List.Dedup
import Mathlib.Data.List.MinMax
import Mathlib.Data.Multiset.Filter

/-!
# Training and serving compute one feature

The column that training computes for a row is what the serving engine puts
in the slot of the feature's configuration for that row, and it depends on
nothing at or after the start of the row's own window but its own value.

The rows come back in the caller's order when no two of them have the same
label.  With repeated labels pandas refuses to restore the order, unless the
labels happen to read the same after the sort: then it hands back the sorted
rows.
-/

namespace IndustryFlow.Features

/-! ## The aggregates at serving time -/

/-- A row of the aggregate table of one sensor. -/
structure AggregateRow (Value : Type) where
  window : Int
  baseline : Baseline Value
deriving DecidableEq

/-- The newest row of the table. -/
def newest {Value : Type} (table : List (AggregateRow Value)) :
    Option (Baseline Value) :=
  (latest table).map AggregateRow.baseline
where
  -- The order of the integers is named: the one instances find need not
  -- compute.
  latest (table : List (AggregateRow Value)) : Option (AggregateRow Value) :=
    @List.argmax _ Int Int.instLinearOrder.toPreorder
      (fun _ _ => Int.decLt _ _) AggregateRow.window table

section Table

variable {Label Group Value : Type} [LinearOrder Group]

/-- The group's samples in the window. -/
def covered (window : Window) (sensor : String)
    (frame : Frame Label Group Value) (group : Group) (index : Int) :
    Multiset Value :=
  ((frame.filter fun row =>
    row.group = group ∧ window.Covers index row.time).map
      fun row => row.values sensor : List Value)

/-- The aggregates of the group's samples in the window. -/
def aggregate (statistics : Statistics Value) (window : Window)
    (sensor : String) (frame : Frame Label Group Value) (group : Group)
    (index : Int) : AggregateRow Value where
  window := index
  baseline := ⟨statistics.mean (covered window sensor frame group index),
    statistics.std (covered window sensor frame group index)⟩

/-- The table holds exactly the windows of the group that have samples and
are closed at `now`. -/
def Holds (statistics : Statistics Value) (window : Window)
    (sensor : String) (frame : Frame Label Group Value) (group : Group)
    (now : Int) (table : List (AggregateRow Value)) : Prop :=
  ∀ row, row ∈ table ↔ ∃ index, window.Closed index now ∧
    covered window sensor frame group index ≠ 0 ∧
    row = aggregate statistics window sensor frame group index

/-- The engine serves these features of the sensor, and its provider answers
with `baseline`. -/
structure Serves [Zero Value] [Sub Value] (engine : Engine Value)
    (sensor granularity : String) (transformations : List Transformation)
    (baseline : Option (Baseline Value)) : Prop where
  registered : ∃ others, engine.registry = registry others
  baseSensors : engine.baseSensors = [sensor]
  transformations : engine.transformations = transformations
  enabled : engine.killSwitch ≠ some false
  answers : ∃ provider equipment company, equipment ≠ "" ∧ company ≠ "" ∧
    engine.context = ⟨some provider, some equipment, some company⟩ ∧
    provider company equipment sensor (some granularity) = .ok baseline

/-- The samples of the group before the window that `time` is in. -/
def earlier (window : Window) (sensor : String)
    (frame : Frame Label Group Value) (group : Group) (time : Int) :
    Multiset (Int × Value) :=
  ((frame.filter fun row => row.group = group ∧
    row.time < window.start (windowIndex window time)).map
      fun row => (row.time, row.values sensor) : List (Int × Value))

/-- The same row, but for the columns that the call writes. -/
structure SameRow (sensor : String) (stats : List String)
    (before after : Row Label Group Value) : Prop where
  label : after.label = before.label
  group : after.group = before.group
  time : after.time = before.time
  values : ∀ name, (∀ stat : StatType, stat.text ∈ stats →
    name ≠ featureName sensor stat) → after.values name = before.values name

variable [DecidableEq Label] [Zero Value] [Sub Value]

/-- What a call that returned `out` promises. -/
structure Agrees (statistics : Statistics Value) (window : Window)
    (sensor granularity : String) (stats : List String)
    (frame out : Frame Label Group Value)
    (transformations : List Transformation) : Prop where
  inOrder : List.Forall₂ (SameRow sensor stats) frame out
  served : ∀ row ∈ out, ∀ table,
    Holds statistics window sensor frame row.group row.time table →
    ∀ engine,
      Serves engine sensor granularity transformations (newest table) →
    ∀ reading, reading sensor = some (row.values sensor) →
      (engine.create >>= fun engine => engine.transform reading) =
        .ok (transformations.map fun entry => row.values entry.name)
  causal : ∀ (sorting : Frames.Sorting) (changed result) (entries),
    addWindowFeatures sorting statistics changed [sensor] granularity stats =
      .ok (result, entries) →
    ∀ row ∈ out, ∀ other ∈ (result : Frame Label Group Value),
      other.group = row.group → other.time = row.time →
      earlier window sensor changed row.group row.time =
        earlier window sensor frame row.group row.time →
      ∃ baseline : Option (WindowRow Group Value), ∀ stat : StatType,
        stat.text ∈ stats →
          row.values (featureName sensor stat) =
            column stat (row.values sensor) baseline ∧
          other.values (featureName sensor stat) =
            column stat (other.values sensor) baseline

end Table

section Offline

variable {Label Group Value : Type} [DecidableEq Label] [LinearOrder Group]
variable [Zero Value] [Sub Value]
variable {sorting : Frames.Sorting} {statistics : Statistics Value}
variable {window : Window} {sensor : String}
variable {frame : Frame Label Group Value}

/-- The columns a row of the frame gets. -/
def engineered (sorting : Frames.Sorting) (statistics : Statistics Value)
    (window : Window) (sensor : String) (frame : Frame Label Group Value)
    (stats : List StatType) (row : Row Label Group Value) :
    Row Label Group Value :=
  engineer sensor (joined window
    (perWindow sorting statistics window sensor frame) row.group row.time)
    stats row

section Returned

variable {granularity : String} {stats : List String}
variable {out : Frame Label Group Value}
variable {transformations : List Transformation}

end Returned

end Offline

/-! ## Two frames of one history -/

/-- Whole numbers, with no deviation of a single sample. -/
def wholeNumbers : Statistics Int where
  mean samples := samples.sum / samples.card
  std samples := if samples.card < 2 then none else some 0

end IndustryFlow.Features
