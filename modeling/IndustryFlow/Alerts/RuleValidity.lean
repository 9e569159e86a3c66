import IndustryFlow.Alerts.RuleTable

/-!
# Rows that are valid as a whole

What a create stores is valid.  What an edit leaves is valid if the columns
that are validated together and that it does not name are as it has read them.
-/

namespace IndustryFlow.AlertRules

open Concurrent

variable {pydantic : Pydantic}

/-! ## Valid rows -/

/-- The whole row passes `AlertRuleCreate.model_validate`. -/
def Valid (pydantic : Pydantic) (row : Row) : Prop :=
  ∃ rule, validate pydantic (fun column => some (row column)) = .ok rule

theorem faults_nil_iff {nullable required : Column → Bool} {given : Given} :
    faults pydantic nullable required given = [] ↔
      ∀ column, (match given column with
        | none => if required column then some Fault.missing else none
        | some value => fieldFault pydantic column (nullable column) value) =
          none := by
  simp only [faults, List.filterMap_eq_nil_iff, Option.map_eq_none_iff]
  constructor
  · exact fun clean column => clean column column.mem_all
  · exact fun clean column _ => clean column

theorem validate_ok_iff {given : Given} {rule : Row} :
    validate pydantic given = .ok rule ↔
      faults pydantic Column.nullable (· = .name) given = [] ∧
        (rule = fun column => (given column).getD column.default) ∧
        detectionRequirements rule = none := by
  unfold validate
  split
  · rename_i clean
    dsimp only
    split
    · rename_i met
      constructor
      · intro same
        cases same
        exact ⟨clean, rfl, met⟩
      · rintro ⟨-, rfl, -⟩
        rfl
    · rename_i message raised
      constructor
      · exact nofun
      · rintro ⟨-, rfl, met⟩
        rw [raised] at met
        cases met
  · rename_i dirty
    constructor
    · exact nofun
    · rintro ⟨clean, -⟩
      exact absurd clean dirty

/-- A given field of a body that is validated has no fault. -/
theorem validate_field {given : Given} {rule : Row} {column : Column}
    {value : Option column.Value}
    (validated : validate pydantic given = .ok rule)
    (named : given column = some value) :
    fieldFault pydantic column column.nullable value = none := by
  have clean := faults_nil_iff.mp (validate_ok_iff.mp validated).1 column
  rw [named] at clean
  exact clean

theorem valid_iff {row : Row} : Valid pydantic row ↔
    (∀ column, fieldFault pydantic column column.nullable (row column) =
      none) ∧ detectionRequirements row = none := by
  constructor
  · rintro ⟨rule, validated⟩
    refine ⟨fun column => validate_field validated rfl, ?_⟩
    obtain ⟨-, same, met⟩ := validate_ok_iff.mp validated
    subst same
    exact met
  · rintro ⟨clean, met⟩
    exact ⟨row, validate_ok_iff.mpr ⟨faults_nil_iff.mpr clean, rfl, met⟩⟩

/-- The columns that are validated together. -/
theorem detectionRequirements_congr {first second : Row}
    (detectionType : first .detectionType = second .detectionType)
    (modelId : first .modelId = second .modelId)
    (threshold : first .threshold = second .threshold) :
    detectionRequirements first = detectionRequirements second := by
  unfold detectionRequirements
  rw [detectionType, modelId, threshold]

/-! ## Merged rows -/

/-- The column was read as it is, if the edit does not name it. -/
structure Agrees (checked : Checked) (row : Row) : Prop where
  detectionType : checked.changes .detectionType = none →
    row .detectionType = checked.read .detectionType
  modelId : checked.changes .modelId = none →
    row .modelId = checked.read .modelId
  threshold : checked.changes .threshold = none →
    row .threshold = checked.read .threshold

instance (checked : Checked) (row : Row) : Decidable (Agrees checked row) :=
  decidable_of_iff
    ((checked.changes .detectionType = none →
      row .detectionType = checked.read .detectionType) ∧
    (checked.changes .modelId = none →
      row .modelId = checked.read .modelId) ∧
    (checked.changes .threshold = none →
      row .threshold = checked.read .threshold))
    ⟨fun ⟨first, second, third⟩ => ⟨first, second, third⟩,
      fun ⟨first, second, third⟩ => ⟨first, second, third⟩⟩

theorem merge_named {before changes : Given} {column : Column}
    {value : Option column.Value} (named : changes column = some value) :
    merge before changes column = some value := by
  rw [merge, named]
  rfl

theorem merge_unnamed {before changes : Given} {column : Column}
    (unnamed : changes column = none) :
    merge before changes column = before column := by
  rw [merge, unnamed]
  rfl

/-- A column of the merged rule is that of the edited row, if null there means
the default. -/
theorem merged_column {changes : Given} {read current : Row}
    {column : Column} {before : Given}
    (kept : before column = (read column).map some)
    (agrees : changes column = none → current column = read column)
    (defaults : current column = none → column.default = none) :
    (merge before changes column).getD column.default =
      changes.apply current column := by
  cases named : changes column with
  | some value =>
      rw [merge_named named, Given.apply, named]
      rfl
  | none =>
      rw [merge_unnamed named, kept, Given.apply, named, ← agrees named]
      cases there : current column with
      | some value => rfl
      | none => exact defaults there

/-- The edited row is valid, if the columns validated together were read as
they are. -/
theorem valid_apply {read : ModelConfig → ModelConfig} {checked : Checked}
    {current rule : Row} (valid : Valid pydantic current)
    (validated : validate pydantic
      (merge (stored read checked.read) checked.changes) = .ok rule)
    (agrees : Agrees checked current) :
    Valid pydantic (checked.changes.apply current) := by
  obtain ⟨clean, met⟩ := valid_iff.mp valid
  apply valid_iff.mpr
  constructor
  · intro column
    cases named : checked.changes column with
    | some value =>
        rw [Given.apply, named]
        exact validate_field validated (merge_named named)
    | none =>
        rw [Given.apply, named]
        exact clean column
  · obtain ⟨-, same, merged⟩ := validate_ok_iff.mp validated
    subst same
    rw [← merged]
    apply detectionRequirements_congr
    · refine (merged_column rfl agrees.detectionType fun absent => ?_).symm
      have fault := clean .detectionType
      rw [absent] at fault
      cases fault
    · exact (merged_column rfl agrees.modelId fun _ => rfl).symm
    · exact (merged_column rfl agrees.threshold fun _ => rfl).symm

/-! ## New rows -/

theorem dump_fault {column : Column} {value : column.Value}
    (clean : fieldFault pydantic column column.nullable (some value) =
      none) :
    fieldFault pydantic column column.nullable
      (dump pydantic column value) = none := by
  unfold dump
  split <;> first
    | exact clean
    | split
      · exact clean
      · rfl

/-- A share is dumped as it is. -/
theorem dump_share {double : UInt64} (positive : Doubles.le 0 double = true)
    (below : Doubles.le double one = true) :
    dump pydantic .threshold double = some double := by
  have finite := Doubles.finite_between positive below (by decide)
  simp [dump, finite]

theorem default_fault (column : Column) :
    column = .name ∨ fieldFault pydantic column column.nullable
      column.default = none := by
  cases column with
  | name => exact .inl rfl
  | anomalyThreshold =>
      cases pydantic with
      | mk boundsNaN keepsNonFinite =>
          revert boundsNaN keepsNonFinite
          decide
  | _ => exact .inr rfl

/-- The rule of a body that is validated has no fault. -/
theorem rule_fault {given : Given} {rule : Row} (column : Column)
    (validated : validate pydantic given = .ok rule) :
    fieldFault pydantic column column.nullable (rule column) = none := by
  obtain ⟨clean, same, -⟩ := validate_ok_iff.mp validated
  have value : rule column = (given column).getD column.default := by
    rw [same]
  rw [value]
  cases named : given column with
  | some value => exact validate_field validated named
  | none =>
      have default : column = .name ∨
          fieldFault pydantic column column.nullable column.default = none :=
        default_fault column
      rcases default with rfl | fine
      · have fault := faults_nil_iff.mp clean .name
        rw [named] at fault
        cases fault
      · exact fine

/-- A drift rule's threshold is a share, and the other rules' is not
looked at. -/
theorem columns_requirements {rule : Row}
    (met : detectionRequirements rule = none) :
    detectionRequirements (columns pydantic rule) = none := by
  have type : columns pydantic rule .detectionType =
      rule .detectionType := by
    unfold columns
    cases rule .detectionType <;> rfl
  have model : columns pydantic rule .modelId = rule .modelId := by
    unfold columns
    cases rule .modelId <;> rfl
  unfold detectionRequirements at met ⊢
  rw [type, model]
  cases kind : rule .detectionType with
  | none => rfl
  | some detection =>
      rw [kind] at met
      cases detection with
      | threshold => rfl
      | ml => exact met
      | statistical =>
          dsimp only at met ⊢
          split at met
          · cases met
          · rename_i bound
            rw [if_neg bound]
            cases there : rule .threshold with
            | none =>
                unfold columns
                rw [there]
                rfl
            | some threshold =>
                rw [there] at met
                dsimp only at met
                split at met
                · rename_i share
                  obtain ⟨positive, below⟩ := Bool.and_eq_true_iff.mp share
                  unfold columns
                  rw [there]
                  simp [dump_share positive below, positive, below]
                · cases met

/-- What a create stores is valid. -/
theorem columns_valid {given : Given} {rule : Row}
    (validated : validate pydantic given = .ok rule) :
    Valid pydantic (columns pydantic rule) := by
  apply valid_iff.mpr
  constructor
  · intro column
    have fine := rule_fault column validated
    unfold columns
    cases there : rule column with
    | none =>
        rw [there] at fine
        exact fine
    | some value =>
        rw [there] at fine
        exact dump_fault fine
  · have met := (validate_ok_iff.mp validated).2.2
    exact columns_requirements met

end IndustryFlow.AlertRules
