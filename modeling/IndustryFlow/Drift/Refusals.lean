import IndustryFlow.Drift.Profile
import Mathlib.Algebra.Group.Int.Defs
import Mathlib.Data.String.Basic

/-!
# What the checks of a sample answer

A sample is refused, or it is not, unless a check runs into something that
Python raises at: a name of a column that no set can hold, or an integer that
is past the doubles.
-/

namespace IndustryFlow.Drift

variable {python : Python} {profile : JsonValue} {baseSensors : List String}
variable {fields cells : Fields} {columns : List JsonValue}

/-! ## One column -/

/-- A finite number, or no value. -/
def Clean (value : JsonValue) : Prop :=
  value = .null ∨ (value.IsFinite ∧ ¬value.Overflows)

theorem checkValue_value {name value : JsonValue} (some_value : value ≠ .null) :
    checkValue python name value =
      match value.isfinite with
      | .error .overflow => .error (.raised .overflowError)
      | .ok true => .ok ()
      | .ok false => .error (.refused ("the sample's column " ++
          python.repr name ++ " holds " ++ python.repr value ++
          ", which is not a number")) := by
  cases value <;> first | rfl | exact absurd rfl some_value

theorem checkValue_ok_iff {name value : JsonValue} :
    checkValue python name value = .ok () ↔ Clean value := by
  by_cases null : value = .null
  · subst null
    exact ⟨fun _ => .inl rfl, fun _ => rfl⟩
  · rw [checkValue_value null]
    by_cases large : value.Overflows
    · rw [JsonValue.isfinite_error large]
      constructor
      · intro never
        cases never
      · rintro (is | ⟨-, fits⟩)
        · exact absurd is null
        · exact absurd large fits
    · rw [JsonValue.isfinite_ok large]
      by_cases finite : value.IsFinite
      · rw [decide_eq_true finite]
        exact ⟨fun _ => .inr ⟨finite, large⟩, fun _ => rfl⟩
      · rw [decide_eq_false finite]
        constructor
        · intro never
          cases never
        · rintro (is | ⟨is, -⟩)
          · exact absurd is null
          · exact absurd is finite

/-- The values under a name, at least one and all of them clean. -/
structure CleanColumn (cells : Fields) (name : JsonValue)
    (values : List JsonValue) : Prop where
  found : column cells name = .arr values
  some : values ≠ []
  clean : ∀ value ∈ values, Clean value

/-- An integer past the doubles is reached among the values under a name. -/
def Bursts (cells : Fields) (name : JsonValue) : Prop :=
  ∃ before value after,
    column cells name = .arr (before ++ value :: after) ∧
      (∀ earlier ∈ before, Clean earlier) ∧ value.Overflows

theorem checkColumn_ok_iff {name : JsonValue} {length : Nat} :
    checkColumn python cells name = .ok length ↔
      ∃ values, CleanColumn cells name values ∧ values.length = length := by
  unfold checkColumn
  split
  · rename_i value values found
    rw [bind_ok_iff]
    constructor
    · rintro ⟨⟨⟩, passes, ⟨⟩⟩
      refine ⟨value :: values, ⟨found, List.cons_ne_nil _ _, ?_⟩, rfl⟩
      exact fun each member =>
        checkValue_ok_iff.mp (forM_ok_iff.mp passes each member)
    · rintro ⟨others, clean, rfl⟩
      cases found.symm.trans clean.found
      refine ⟨(), forM_ok_iff.mpr fun each member => ?_, rfl⟩
      exact checkValue_ok_iff.mpr (clean.clean each member)
  · rename_i other
    constructor
    · nofun
    · rintro ⟨values, clean, -⟩
      cases values with
      | nil => exact absurd rfl clean.some
      | cons value values => exact absurd clean.found (other value values)

theorem sorted_eq_iff {names others : List String} :
    sorted names = sorted others ↔ names.Perm others := by
  have perm (texts : List String) : (sorted texts).Perm texts :=
    List.mergeSort_perm _ _
  have ordered (texts : List String) :
      (sorted texts).Pairwise fun first second =>
        decide (first ≤ second) = true :=
    List.pairwise_mergeSort
      (fun first second third => by simpa using le_trans)
      (fun first second => by simpa using le_total first second) texts
  constructor
  · intro same
    exact (perm names).symm.trans (same ▸ perm others)
  · intro shuffled
    refine List.Perm.eq_of_pairwise ?_ (ordered names) (ordered others)
      ((perm names).trans (shuffled.trans (perm others).symm))
    intro first second _ _ below above
    exact le_antisymm (of_decide_eq_true below) (of_decide_eq_true above)

/-- The version, and columns that are named as the inputs are. -/
structure Matches (python : Python) (fields : Fields)
    (columns : List JsonValue) (cells : Fields) (baseSensors : List String) :
    Prop where
  version : (JsonValue.get fields "schema_version").same (.int 2) = true
  listed : JsonValue.get fields "columns" = .arr columns
  held : JsonValue.get fields "sample" = .obj cells
  bound : baseSensors ≠ []
  inputs : (columns.map python.str).Perm baseSensors

/-- The check of a sample whose columns are named as the inputs are. -/
theorem checkSample_matches
    (fits : Matches python fields columns cells baseSensors) :
    checkSample python (.obj fields) baseSensors = (do
      if columns.all JsonValue.hashable = false then
        throw (.raised .typeError)
      if distinct columns = false then
        throw (notInputs python columns baseSensors)
      let lengths ← columns.mapM (checkColumn python cells)
      if lengths.dedup.length ≠ 1 then
        throw (.refused ("the sample's columns differ in length: " ++
          python.repr (.arr (lengths.dedup.mergeSort.map
            fun length : Nat => .int length))))) := by
  have same := sorted_eq_iff.mpr fits.inputs
  simp only [checkSample, fits.version, fits.listed, fits.held, fits.bound,
    same, Bool.true_eq_false, if_false, ne_eq, not_true, pure, Except.pure,
    bind, Except.bind]

/-- Without this the check ends before it looks at a set or a value. -/
theorem checkSample_unmatched
    (unfit : ∀ fields columns cells, profile = .obj fields →
      ¬Matches python fields columns cells baseSensors) :
    ∃ reason, checkSample python profile baseSensors =
      .error (.refused reason) := by
  unfold checkSample
  cases profile with
  | obj fields =>
      dsimp only
      by_cases version :
          (JsonValue.get fields "schema_version").same (.int 2) = false
      · rw [if_pos version]
        exact ⟨_, rfl⟩
      · rw [if_neg version]
        split
        · rename_i columns cells listed held
          by_cases bound : baseSensors = []
          · rw [if_pos bound]
            exact ⟨_, rfl⟩
          · rw [if_neg bound]
            by_cases inputs : sorted (columns.map python.str) =
                sorted baseSensors
            · exact absurd ⟨Bool.not_eq_false _ ▸ version, listed, held,
                bound, sorted_eq_iff.mp inputs⟩ (unfit fields columns cells rfl)
            · rw [if_pos inputs]
              exact ⟨_, rfl⟩
        · exact ⟨_, rfl⟩
  | null => exact ⟨_, rfl⟩
  | bool value => exact ⟨_, rfl⟩
  | int number => exact ⟨_, rfl⟩
  | float bits => exact ⟨_, rfl⟩
  | str text => exact ⟨_, rfl⟩
  | arr items => exact ⟨_, rfl⟩

/-- What the check of a sample raises at. -/
inductive Raises (python : Python) (profile : JsonValue)
    (baseSensors : List String) : Raised → Prop where
  | compound {fields cells : Fields} {columns : List JsonValue}
      {name : JsonValue} (is : profile = .obj fields)
      (fits : Matches python fields columns cells baseSensors)
      (member : name ∈ columns) (unhashable : name.hashable = false) :
      Raises python profile baseSensors .typeError
  | overflow {fields cells : Fields} {before after : List JsonValue}
      {name : JsonValue} (is : profile = .obj fields)
      (fits : Matches python fields (before ++ name :: after) cells
        baseSensors)
      (scalar : (before ++ name :: after).all JsonValue.hashable = true)
      (apart : distinct (before ++ name :: after) = true)
      (clean : ∀ earlier ∈ before, ∃ values,
        CleanColumn cells earlier values)
      (bursts : Bursts cells name) :
      Raises python profile baseSensors .overflowError

theorem Matches.unique {others : List JsonValue} {held : Fields}
    (fits : Matches python fields columns cells baseSensors)
    (also : Matches python fields others held baseSensors) :
    others = columns ∧ held = cells := by
  have listed := also.listed.symm.trans fits.listed
  have found := also.held.symm.trans fits.held
  injection listed with listed
  injection found with found
  exact ⟨listed, found⟩

end IndustryFlow.Drift
