import IndustryFlow.Features.Agreement
import Mathlib.Data.Multiset.MapFold

/-!
# Window features of a history with gaps

A sensor's value may be missing in a row.  A window's mean and deviation are
taken over the values that are there, and of none they are missing too.  The
table of the windows is still made from all rows, so a window in which no value
was taken has a row in it.
-/

namespace IndustryFlow.Features

section

variable {Label Group Value : Type} [DecidableEq Label] [LinearOrder Group]

/-! ## Missing values -/

/-- The numbers of a frame, NaN left out. -/
structure Numbers (Value : Type) where
  zero : Value
  /-- The difference may be NaN, as that of two infinities is. -/
  minus : Value → Value → Option Value
  apart : ∀ current, ∃ mean difference,
    minus current mean = some difference ∧ difference ≠ zero

/-- The mean and the deviation of the values that are there. -/
structure Measures (Value : Type) where
  mean : Multiset Value → Option Value
  std : Multiset Value → Option Value
  mean_none : mean 0 = none
  std_none : std 0 = none

/-- `agg(["mean", "std"])`, which leaves missing values out. -/
def Measures.statistics (measures : Measures Value) :
    Statistics (Option Value) where
  mean samples := measures.mean (samples.filterMap id)
  std samples := some (measures.std (samples.filterMap id))

/-- The sensor took a sample in the row. -/
def sampled (sensor : String) (row : Row Label Group (Option Value)) : Bool :=
  (row.values sensor).isSome

/-- The rows of the frame come back: no label stands twice, or the sort leaves
the labels where they are. -/
def Restorable (sorting : Frames.Sorting)
    (frame : Frame Label Group (Option Value)) : Prop :=
  (frame.map Row.label).Nodup ∨
    (sortFrame sorting frame).map Row.label = frame.map Row.label

section Columns

variable {column : StatType → Value → Option (WindowRow Group Value) → Value}
variable {sorting : Frames.Sorting} {statistics : Statistics Value}
variable {window : Window} {sensor : String}
variable {frame : Frame Label Group Value}

end Columns

/-! ## The samples without the gaps -/

section Gaps

variable {numbers : Numbers Value} {sorting : Frames.Sorting}
variable {measures : Measures Value} {window : Window} {sensor : String}
variable {frame : Frame Label Group (Option Value)}

section Call

variable {granularity : String} {stats : List String}

end Call

end Gaps

end

/-! ## A window in which no value was taken -/

end IndustryFlow.Features
