import IndustryFlow.Drift.Refusals
import Mathlib.Data.List.Dedup
import Mathlib.Data.List.GetD

/-!
# A sample that was accepted

Its columns are named by the inputs, each once, and hold as many values, none
of which is a number that is not finite.  What is stored of it is rows at evenly
spaced indices, which is again such a sample, and which a second pass leaves as
it is.
-/

namespace IndustryFlow.Drift

variable {python : Python} {fields : Fields} {baseSensors : List String}

/-! ## Evenly spaced indices -/

theorem length_sampleIndices (rows maxRows : Nat) :
    (sampleIndices rows maxRows).length = min rows maxRows := by
  unfold sampleIndices
  by_cases few : rows ≤ maxRows
  · simp [few]
  · rw [if_neg few, List.length_map, List.length_range]
    omega

theorem sampleIndices_of_le {rows maxRows : Nat} (few : rows ≤ maxRows) :
    sampleIndices rows maxRows = List.range rows :=
  if_pos few

/-- Two steps of the spacing are at least one row apart. -/
theorem spacing_lt {rows maxRows first second : Nat} (several : 1 < maxRows)
    (many : maxRows ≤ rows) (less : first < second) :
    first * (rows - 1) / (maxRows - 1) <
      second * (rows - 1) / (maxRows - 1) := by
  have gap : first * (rows - 1) + (maxRows - 1) ≤ second * (rows - 1) := by
    calc first * (rows - 1) + (maxRows - 1)
        ≤ first * (rows - 1) + (rows - 1) := by omega
      _ = (first + 1) * (rows - 1) := by rw [Nat.add_mul, Nat.one_mul]
      _ ≤ second * (rows - 1) := Nat.mul_le_mul_right _ less
  calc first * (rows - 1) / (maxRows - 1)
      < first * (rows - 1) / (maxRows - 1) + 1 := Nat.lt_succ_self _
    _ = (first * (rows - 1) + (maxRows - 1)) / (maxRows - 1) :=
        (Nat.add_div_right _ (by omega)).symm
    _ ≤ second * (rows - 1) / (maxRows - 1) := Nat.div_le_div_right gap

theorem sampleIndices_increasing {rows maxRows : Nat}
    (several : 1 < maxRows) :
    (sampleIndices rows maxRows).Pairwise (· < ·) := by
  unfold sampleIndices
  by_cases few : rows ≤ maxRows
  · rw [if_pos few]
    exact List.pairwise_lt_range
  · rw [if_neg few, List.pairwise_map]
    exact List.pairwise_lt_range.imp fun less =>
      spacing_lt several (by omega) less

theorem sampleIndices_lt {rows maxRows index : Nat}
    (member : index ∈ sampleIndices rows maxRows) : index < rows := by
  unfold sampleIndices at member
  by_cases few : rows ≤ maxRows
  · rw [if_pos few] at member
    exact List.mem_range.mp member
  · rw [if_neg few] at member
    obtain ⟨step, inside, rfl⟩ := List.mem_map.mp member
    have below := List.mem_range.mp inside
    have bound : step * (rows - 1) / (maxRows - 1) ≤ rows - 1 := by
      apply Nat.div_le_of_le_mul
      rw [Nat.mul_comm (maxRows - 1)]
      rw [Nat.mul_comm step]
      exact Nat.mul_le_mul_left _ (by omega)
    omega

theorem sampleIndices_head {rows maxRows : Nat} (nonempty : 0 < rows)
    (positive : 0 < maxRows) :
    (sampleIndices rows maxRows).head? = some 0 := by
  unfold sampleIndices
  obtain ⟨more, rfl⟩ := Nat.exists_eq_succ_of_ne_zero positive.ne'
  obtain ⟨others, rfl⟩ := Nat.exists_eq_succ_of_ne_zero nonempty.ne'
  by_cases few : others.succ ≤ more.succ
  · rw [if_pos few, List.range_succ_eq_map]
    rfl
  · rw [if_neg few, List.range_succ_eq_map]
    simp

theorem sampleIndices_last {rows maxRows : Nat} (nonempty : 0 < rows)
    (several : 1 < maxRows) :
    (sampleIndices rows maxRows).getLast? = some (rows - 1) := by
  unfold sampleIndices
  obtain ⟨others, rfl⟩ := Nat.exists_eq_succ_of_ne_zero nonempty.ne'
  obtain ⟨more, rfl⟩ := Nat.exists_eq_succ_of_ne_zero (by omega :
    maxRows ≠ 0)
  by_cases few : others.succ ≤ more.succ
  · rw [if_pos few, List.range_succ]
    simp
  · rw [if_neg few, List.range_succ, List.map_append]
    have last : more * others / more = others :=
      Nat.mul_div_cancel_left _ (by omega)
    simp [last]

/-! ## Samples -/

/-- The values of a column of the sample. -/
def columnOf (fields : Fields) (name : String) : List JsonValue :=
  match JsonValue.get fields "sample" with
  | .obj cells => (values? cells (.str name)).getD []
  | _ => []

/-- The columns are the inputs, each once, with as many clean values. -/
structure IsSample (fields : Fields) (baseSensors names : List String)
    (rows : Nat) : Prop where
  version : (JsonValue.get fields "schema_version").same (.int 2) = true
  listed : JsonValue.get fields "columns" = .arr (names.map .str)
  held : ∃ cells, JsonValue.get fields "sample" = .obj cells
  inputs : names.Perm baseSensors
  once : names.Nodup
  bound : baseSensors ≠ []
  clean : ∀ name ∈ names, ∀ value ∈ columnOf fields name, Clean value
  length : ∀ name ∈ names, (columnOf fields name).length = rows
  nonempty : 0 < rows

theorem columnOf_eq {cells : Fields} {name : String}
    {values : List JsonValue}
    (held : JsonValue.get fields "sample" = .obj cells)
    (found : column cells (.str name) = .arr values) :
    columnOf fields name = values := by
  rw [columnOf, held]
  simp only [values?, found, Option.getD_some]

theorem IsSample.found {names : List String} {rows : Nat} {cells : Fields}
    {name : String} (sample : IsSample fields baseSensors names rows)
    (held : JsonValue.get fields "sample" = .obj cells)
    (member : name ∈ names) :
    column cells (.str name) = .arr (columnOf fields name) := by
  have length := sample.length name member
  have positive := sample.nonempty
  rw [columnOf, held] at length ⊢
  simp only [values?] at length ⊢
  split at length
  · rename_i values found
    rw [found]
    rfl
  · simp only [Option.getD_none, List.length_nil] at length
    omega

theorem IsSample.values {names : List String} {rows : Nat} {cells : Fields}
    {name : String} (sample : IsSample fields baseSensors names rows)
    (held : JsonValue.get fields "sample" = .obj cells)
    (member : name ∈ names) :
    values? cells (.str name) = some (columnOf fields name) := by
  rw [values?, sample.found held member]

theorem distinct_names {names : List String} :
    distinct (names.map .str) = true ↔ names.Nodup := by
  induction names with
  | nil => simp [distinct]
  | cons name names induction =>
      rw [List.map_cons, distinct, List.nodup_cons, Bool.and_eq_true,
        induction]
      refine and_congr ?_ Iff.rfl
      rw [Bool.not_eq_true', List.any_map, List.any_eq_false]
      constructor
      · intro apart member
        exact apart name member (decide_eq_true rfl)
      · rintro missing other member same
        exact missing (of_decide_eq_true same ▸ member)

/-- All of some lengths are one length. -/
theorem dedup_length_one {lengths : List Nat} :
    lengths.dedup.length = 1 ↔
      ∃ length, lengths ≠ [] ∧ ∀ other ∈ lengths, other = length := by
  rw [List.length_eq_one_iff]
  constructor
  · rintro ⟨length, single⟩
    refine ⟨length, ?_, fun other member => ?_⟩
    · rintro rfl
      cases single
    · have inside := List.mem_dedup.mpr member
      rw [single] at inside
      exact List.mem_singleton.mp inside
  · rintro ⟨length, some, same⟩
    refine ⟨length, List.perm_singleton.mp ?_⟩
    refine (List.perm_ext_iff_of_nodup (List.nodup_dedup _)
      (List.nodup_singleton _)).mpr fun other => ?_
    rw [List.mem_dedup, List.mem_singleton]
    constructor
    · exact same other
    · rintro rfl
      obtain ⟨first, member⟩ := List.exists_mem_of_ne_nil _ some
      exact same first member ▸ member

theorem checkSample_ok_of {names : List String} {rows : Nat}
    (sample : IsSample fields baseSensors names rows) :
    checkSample python (.obj fields) baseSensors = .ok () := by
  obtain ⟨cells, held⟩ := sample.held
  have shown : (names.map JsonValue.str).map python.str = names := by
    rw [List.map_map]
    exact List.map_id _
  have fits : Matches python fields (names.map .str) cells baseSensors :=
    ⟨sample.version, sample.listed, held, sample.bound,
      shown.symm ▸ sample.inputs⟩
  have scalar : (names.map JsonValue.str).all JsonValue.hashable = true := by
    rw [List.all_map]
    exact List.all_eq_true.mpr fun _ _ => rfl
  have lengths : (names.map JsonValue.str).mapM (checkColumn python cells) =
      .ok (names.map fun _ => rows) := by
    rw [List.mapM_map]
    refine mapM_ok fun name member => checkColumn_ok_iff.mpr ?_
    have length := sample.length name member
    refine ⟨columnOf fields name, ⟨sample.found held member, ?_,
      sample.clean name member⟩, length⟩
    rintro empty
    have positive := sample.nonempty
    rw [← length, empty] at positive
    exact absurd positive (Nat.lt_irrefl 0)
  have one : (names.map fun _ => rows).dedup.length = 1 := by
    refine dedup_length_one.mpr ⟨rows, ?_, fun other member => ?_⟩
    · intro empty
      have none := List.map_eq_nil_iff.mp empty
      exact sample.bound (List.Perm.nil_eq (none ▸ sample.inputs)).symm
    · obtain ⟨name, -, rfl⟩ := List.mem_map.mp member
      rfl
  rw [checkSample_matches fits]
  simp only [scalar, distinct_names.mpr sample.once, lengths,
    Bool.true_eq_false, if_false, ne_eq]
  exact if_neg fun several => several one

theorem isSample_of_checkSample
    (passes : checkSample python (.obj fields) baseSensors = .ok ()) :
    ∃ names rows, IsSample fields baseSensors names rows := by
  by_cases fit : ∃ columns cells,
      Matches python fields columns cells baseSensors
  · obtain ⟨columns, cells, fits⟩ := fit
    rw [checkSample_matches fits] at passes
    obtain ⟨scalar, passes⟩ := check_ok_iff.mp passes
    obtain ⟨apart, passes⟩ := check_ok_iff.mp passes
    obtain ⟨lengths, measured, one⟩ := bind_ok_iff.mp passes
    have clean : ∀ name ∈ columns, ∃ text values, name = .str text ∧
        CleanColumn cells name values ∧ values.length ∈ lengths := by
      intro name member
      obtain ⟨length, inside, passed⟩ := mapM_mem measured member
      obtain ⟨values, clean, rfl⟩ := checkColumn_ok_iff.mp passed
      cases name with
      | str text => exact ⟨text, values, rfl, clean, inside⟩
      | null => exact nomatch clean.found
      | bool value => exact nomatch clean.found
      | int number => exact nomatch clean.found
      | float bits => exact nomatch clean.found
      | arr items => exact nomatch clean.found
      | obj entries => exact nomatch clean.found
    have texts : ∃ names : List String, columns = names.map .str := by
      refine ⟨columns.map python.str, ?_⟩
      rw [List.map_map]
      refine ((List.map_congr_left fun name member => ?_).trans
        (List.map_id _)).symm
      obtain ⟨text, -, rfl, -⟩ := clean name member
      rfl
    obtain ⟨names, rfl⟩ := texts
    have shown : (names.map JsonValue.str).map python.str = names := by
      rw [List.map_map]
      exact List.map_id _
    have single : lengths.dedup.length = 1 := by
      by_contra several
      rw [if_pos several] at one
      cases one
    obtain ⟨rows, -, same⟩ := dedup_length_one.mp single
    have found : ∀ name ∈ names,
        CleanColumn cells (.str name) (columnOf fields name) ∧
          (columnOf fields name).length = rows := by
      intro name member
      obtain ⟨text, values, -, passes, inside⟩ :=
        clean (.str name) (List.mem_map_of_mem member)
      rw [columnOf_eq fits.held passes.found]
      exact ⟨passes, same _ inside⟩
    refine ⟨names, rows, fits.version, fits.listed, ⟨cells, fits.held⟩,
      shown ▸ fits.inputs,
      distinct_names.mp ((Bool.not_eq_false _).mp apart), fits.bound,
      fun name member => (found name member).1.clean,
      fun name member => (found name member).2, ?_⟩
    obtain ⟨name, member⟩ := List.exists_mem_of_ne_nil names (by
      rintro rfl
      exact fits.bound (List.Perm.nil_eq (shown ▸ fits.inputs)).symm)
    rw [← (found name member).2]
    exact List.length_pos_of_ne_nil (found name member).1.some
  · obtain ⟨reason, refused⟩ : ∃ reason,
        checkSample python (.obj fields) baseSensors =
          .error (.refused reason) :=
      checkSample_unmatched fun others columns cells is fits => by
        cases is
        exact fit ⟨columns, cells, fits⟩
    rw [refused] at passes
    cases passes

/-- What is accepted is a sample of the inputs. -/
theorem sampleRefusal_none_iff :
    sampleRefusal python (.obj fields) baseSensors = .ok none ↔
      ∃ names rows, IsSample fields baseSensors names rows := by
  have passes : sampleRefusal python (.obj fields) baseSensors = .ok none ↔
      checkSample python (.obj fields) baseSensors = .ok () := by
    unfold sampleRefusal
    constructor
    · intro answered
      split at answered
      · rename_i passes
        exact passes
      · cases answered
      · cases answered
    · intro passes
      rw [passes]
  rw [passes]
  constructor
  · exact isSample_of_checkSample
  · rintro ⟨names, rows, sample⟩
    exact checkSample_ok_of sample

/-! ## What is stored -/

section Stored

theorem mapM_some {Item Answer : Type} {action : Item → Option Answer}
    {answer : Item → Answer} {items : List Item}
    (all : ∀ item ∈ items, action item = some (answer item)) :
    items.mapM action = some (items.map answer) := by
  induction items with
  | nil => rfl
  | cons item items induction =>
      obtain ⟨head, tail⟩ := List.forall_mem_cons.mp all
      rw [List.mapM_cons, head, induction tail]
      rfl

theorem mapM_congr {Item Answer : Type} {action other : Item → Option Answer}
    {items : List Item}
    (same : ∀ item ∈ items, action item = other item) :
    items.mapM action = items.mapM other := by
  induction items with
  | nil => rfl
  | cons item items induction =>
      obtain ⟨head, tail⟩ := List.forall_mem_cons.mp same
      rw [List.mapM_cons, List.mapM_cons, head, induction tail]

/-- The values at the indices. -/
def keptValues (values : List JsonValue) (indices : List Nat) :
    List JsonValue :=
  indices.map fun index => values.getD index .null

theorem keptValues_range (values : List JsonValue) :
    keptValues values (List.range values.length) = values := by
  refine List.ext_getElem (by simp [keptValues]) fun index _ inside => ?_
  simp [keptValues, inside]

theorem mapM_getElem {values : List JsonValue} {indices : List Nat}
    (inside : ∀ index ∈ indices, index < values.length) :
    (indices.mapM fun index => values[index]?) =
      some (keptValues values indices) := by
  refine mapM_some fun index member => ?_
  rw [List.getElem?_eq_getElem (inside index member), List.getD_eq_getElem]

/-- The rows of a sample at evenly spaced indices, as they are stored. -/
def storedSample (fields : Fields) (names : List String) (rows : Nat) :
    Fields :=
  let indices := sampleIndices rows defaultMaxSampleRows
  [("schema_version", .int 2), ("method", .str "evidently_sample"),
    ("columns", .arr (names.map .str)), ("prediction_column", .null),
    ("n_training_rows", .int (trainingRows fields rows)),
    ("n_samples", .int indices.length),
    ("sample", .obj (names.map fun name =>
      (name, .arr (keptValues (columnOf fields name) indices))))]

variable {names : List String} {rows : Nat}

theorem acceptedSample_eq
    (sample : IsSample fields baseSensors names rows) :
    acceptedSample fields = some (storedSample fields names rows) := by
  obtain ⟨cells, held⟩ := sample.held
  have columns : (names.map JsonValue.str).mapM
      (keptColumn cells (sampleIndices rows defaultMaxSampleRows)) =
        some (names.map fun name => (name, .arr (keptValues
          (columnOf fields name)
            (sampleIndices rows defaultMaxSampleRows)))) := by
    rw [List.mapM_map]
    refine mapM_some fun name member => ?_
    have kept : ((sampleIndices rows defaultMaxSampleRows).mapM fun index =>
        (columnOf fields name)[index]?) = some (keptValues
          (columnOf fields name) (sampleIndices rows defaultMaxSampleRows)) :=
      mapM_getElem fun index inside =>
        (sample.length name member).symm ▸ sampleIndices_lt inside
    simp only [Function.comp_apply, keptColumn, sample.values held member,
      bind, Option.bind, kept]
    rfl
  cases names with
  | nil =>
      exact absurd (List.Perm.nil_eq sample.inputs).symm sample.bound
  | cons first names =>
      have supplied := sample.values held List.mem_cons_self
      have length := sample.length first List.mem_cons_self
      rw [acceptedSample, sample.listed, held]
      simp only [List.map_cons, List.head?_cons, bind, Option.bind, supplied,
        length]
      rw [← List.map_cons (f := JsonValue.str), columns]
      rfl

theorem lookup_columns {Value : Type} (value : String → Value)
    {name : String} (member : name ∈ names) :
    (names.map fun name => (name, value name)).lookup name =
      some (value name) := by
  induction names with
  | nil => cases member
  | cons first names induction =>
      rw [List.map_cons, List.lookup_cons]
      by_cases own : name = first
      · simp [own]
      · rw [beq_false_of_ne own]
        exact induction ((List.mem_cons.mp member).resolve_left own)

theorem columnOf_stored {name : String} (member : name ∈ names) :
    columnOf (storedSample fields names rows) name =
      keptValues (columnOf fields name)
        (sampleIndices rows defaultMaxSampleRows) := by
  refine columnOf_eq rfl ?_
  rw [column, JsonValue.get, lookup_columns _ member]
  rfl

theorem le_trainingRows : (rows : Int) ≤ trainingRows fields rows := by
  unfold trainingRows
  split
  · split
    · exact Int.le_refl _
    · omega
  · exact Int.le_refl _

/-- What is stored is a sample of the same inputs. -/
theorem storedSample_isSample
    (sample : IsSample fields baseSensors names rows) :
    IsSample (storedSample fields names rows) baseSensors names
      (sampleIndices rows defaultMaxSampleRows).length where
  version := rfl
  listed := rfl
  held := ⟨_, rfl⟩
  inputs := sample.inputs
  once := sample.once
  bound := sample.bound
  clean name member value inside := by
    rw [columnOf_stored member] at inside
    obtain ⟨index, kept, rfl⟩ := List.mem_map.mp inside
    have below : index < (columnOf fields name).length :=
      (sample.length name member).symm ▸ sampleIndices_lt kept
    rw [List.getD_eq_getElem _ _ below]
    exact sample.clean name member _ (List.getElem_mem below)
  length name member := by
    rw [columnOf_stored member, keptValues, List.length_map]
  nonempty := by
    rw [length_sampleIndices]
    exact Nat.lt_min.mpr ⟨sample.nonempty, by decide⟩

/-- A second pass leaves it as it is. -/
theorem acceptedSample_stored
    (sample : IsSample fields baseSensors names rows) :
    acceptedSample (storedSample fields names rows) =
      some (storedSample fields names rows) := by
  have few : (sampleIndices rows defaultMaxSampleRows).length ≤
      defaultMaxSampleRows := by
    rw [length_sampleIndices]
    exact Nat.min_le_right _ _
  have fewer : ((sampleIndices rows defaultMaxSampleRows).length : Int) ≤
      trainingRows fields rows := by
    have total : (rows : Int) ≤ trainingRows fields rows := le_trainingRows
    have kept := length_sampleIndices rows defaultMaxSampleRows
    omega
  have training : trainingRows (storedSample fields names rows)
      (sampleIndices rows defaultMaxSampleRows).length =
        trainingRows fields rows := by
    rw [trainingRows, storedSample]
    exact if_neg (Int.not_lt.mpr fewer)
  have columns : (names.map fun name => (name, JsonValue.arr (keptValues
      (columnOf (storedSample fields names rows) name)
        (List.range (sampleIndices rows defaultMaxSampleRows).length)))) =
      names.map fun name => (name, .arr (keptValues (columnOf fields name)
        (sampleIndices rows defaultMaxSampleRows))) := by
    refine List.map_congr_left fun name member => ?_
    have length : (sampleIndices rows defaultMaxSampleRows).length =
        (columnOf (storedSample fields names rows) name).length :=
      ((storedSample_isSample sample).length name member).symm
    rw [length, keptValues_range, columnOf_stored member]
  rw [acceptedSample_eq (storedSample_isSample sample)]
  conv => lhs; rw [storedSample]
  simp only [sampleIndices_of_le few, List.length_range, training, columns]
  rfl

/-- The cells of a row. -/
def rowOf (fields : Fields) (names : List String) (index : Nat) :
    List (String × JsonValue) :=
  names.map fun name => (name, (columnOf fields name).getD index .null)

/-- No value of the row is missing. -/
def present (row : List (String × JsonValue)) : Bool :=
  !row.any fun cell => cell.2.isNull

/-- The rows without a missing value, each as its numbers. -/
def Numbers (rows : List (List (String × JsonValue))) (answers : List Row) :
    Prop :=
  List.Forall₂ (fun row numbers => row.mapM numberCell = some numbers)
    (rows.filter present) answers

theorem clean_double? {value : JsonValue} (clean : Clean value)
    (given : value ≠ .null) : ∃ number, value.double? = some number := by
  obtain ⟨finite, fits⟩ := clean.resolve_left given
  cases value with
  | int number => exact Option.ne_none_iff_exists'.mp fits
  | float bits => exact ⟨bits, rfl⟩
  | null => exact absurd rfl given
  | bool value => exact finite.elim
  | str text => exact finite.elim
  | arr items => exact finite.elim
  | obj entries => exact finite.elim

/-- A row of clean values is left out, or its numbers are taken. -/
theorem complete?_row {row : List (String × JsonValue)}
    (clean : ∀ cell ∈ row, Clean cell.2) :
    (present row = false ∧ complete? row = some none) ∨
      (present row = true ∧ ∃ numbers, row.mapM numberCell = some numbers ∧
        complete? row = some (some numbers)) := by
  unfold present complete?
  by_cases missing : (row.any fun cell => cell.2.isNull) = true
  · exact .inl ⟨by rw [missing]; rfl, if_pos missing⟩
  · refine .inr ⟨by rw [Bool.eq_false_of_not_eq_true missing]; rfl, ?_⟩
    rw [if_neg missing]
    have numbers : ∃ numbers, row.mapM numberCell = some numbers := by
      refine ⟨_, mapM_some fun cell member => (?_ : _ =
        some (cell.1, (cell.2.double?).getD 0))⟩
      have given : cell.2 ≠ .null := by
        intro null
        refine missing (List.any_eq_true.mpr ⟨cell, member, ?_⟩)
        rw [null]
        rfl
      obtain ⟨number, is⟩ := clean_double? (clean cell member) given
      rw [numberCell, is]
      rfl
    obtain ⟨numbers, are⟩ := numbers
    exact ⟨numbers, are, by rw [are]; rfl⟩

theorem complete_rows {table : List (List (String × JsonValue))}
    (clean : ∀ row ∈ table, ∀ cell ∈ row, Clean cell.2) :
    ∃ answers, (table.mapM complete?) = some answers ∧
      Numbers table (answers.filterMap id) := by
  induction table with
  | nil => exact ⟨[], rfl, .nil⟩
  | cons row table induction =>
      obtain ⟨head, tail⟩ := List.forall_mem_cons.mp clean
      obtain ⟨answers, mapped, numbers⟩ := induction tail
      rcases complete?_row head with ⟨missing, out⟩ |
          ⟨whole, own, are, out⟩
      · refine ⟨none :: answers, ?_, ?_⟩
        · rw [List.mapM_cons, out, mapped]
          rfl
        · rw [Numbers, List.filter_cons, missing]
          exact numbers
      · refine ⟨some own :: answers, ?_, ?_⟩
        · rw [List.mapM_cons, out, mapped]
          rfl
        · rw [Numbers, List.filter_cons, whole]
          exact .cons are numbers

/-- The rows of a sample are those without a missing value. -/
theorem sampleRows_sample
    (sample : IsSample fields baseSensors names rows) :
    ∃ answers, sampleRows fields = some answers ∧
      Numbers ((List.range rows).map (rowOf fields names)) answers := by
  obtain ⟨cells, held⟩ := sample.held
  have row : ∀ index ∈ List.range rows,
      rowAt cells (names.map .str) index =
        some (rowOf fields names index) := by
    intro index below
    rw [rowAt, List.mapM_map]
    refine mapM_some fun name member => ?_
    have inside : index < (columnOf fields name).length :=
      (sample.length name member).symm ▸ List.mem_range.mp below
    simp only [Function.comp_apply, sample.values held member, bind,
      Option.bind, List.getElem?_eq_getElem inside,
      List.getD_eq_getElem _ _ inside]
    rfl
  have clean : ∀ line ∈ (List.range rows).map (rowOf fields names),
      ∀ cell ∈ line, Clean cell.2 := by
    intro line member cell inside
    obtain ⟨index, below, rfl⟩ := List.mem_map.mp member
    obtain ⟨name, named, rfl⟩ := List.mem_map.mp inside
    have within : index < (columnOf fields name).length :=
      (sample.length name named).symm ▸ List.mem_range.mp below
    rw [List.getD_eq_getElem _ _ within]
    exact sample.clean name named _ (List.getElem_mem within)
  obtain ⟨answers, mapped, numbers⟩ := complete_rows clean
  refine ⟨answers.filterMap id, ?_, numbers⟩
  have lines : ((List.range rows).mapM fun index => do
      let line ← rowAt cells (names.map .str) index
      complete? line) = some answers := by
    rw [List.mapM_map] at mapped
    rw [← mapped]
    refine mapM_congr fun index member => ?_
    rw [row index member]
    rfl
  cases names with
  | nil =>
      exact absurd (List.Perm.nil_eq sample.inputs).symm sample.bound
  | cons first names =>
      have supplied := sample.values held List.mem_cons_self
      have length := sample.length first List.mem_cons_self
      rw [sampleRows, sample.listed, held]
      simp only [List.map_cons] at lines ⊢
      simp only [supplied, Option.bind_eq_bind, Option.bind_some, length]
      simp only [Option.bind_eq_bind] at lines
      rw [lines]
      rfl

end Stored

/-! ## The sample of a notebook -/

section Notebook

variable {data : List (String × List UInt64)} {rows maxRows : Nat}

/-- Columns of finite numbers, as many in each. -/
structure FiniteColumns (data : List (String × List UInt64)) (rows : Nat) :
    Prop where
  some : data ≠ []
  once : (data.map Prod.fst).Nodup
  finite : ∀ entry ∈ data, ∀ bits ∈ entry.2, Doubles.isFinite bits = true
  length : ∀ entry ∈ data, entry.2.length = rows
  nonempty : 0 < rows

theorem cleanColumn_eq {values : List UInt64} {indices : List Nat}
    (finite : ∀ bits ∈ values, Doubles.isFinite bits = true)
    (inside : ∀ index ∈ indices, index < values.length) :
    cleanColumn values indices =
      keptValues (values.map .float) indices := by
  unfold cleanColumn keptValues
  rw [← List.filterMap_eq_map]
  refine List.filterMap_congr fun index member => ?_
  have below := inside index member
  have among := finite _ (List.getElem_mem below)
  simp [List.getElem?_eq_getElem below, among]

/-- The sample of such columns. -/
def notebookSample (data : List (String × List UInt64))
    (rows maxRows : Nat) : Fields :=
  let indices := sampleIndices rows maxRows
  [("schema_version", .int 2), ("method", .str "evidently_sample"),
    ("columns", .arr ((data.map Prod.fst).map .str)),
    ("prediction_column", .null), ("n_training_rows", .int rows),
    ("n_samples", .int indices.length),
    ("sample", .obj (data.map fun entry =>
      (entry.1, .arr (keptValues (entry.2.map .float) indices))))]

theorem featureSample_eq (columns : FiniteColumns data rows)
    (positive : 0 < maxRows) :
    featureSample data maxRows = some (notebookSample data rows maxRows) := by
  cases data with
  | nil => exact absurd rfl columns.some
  | cons first others =>
      have own := columns.length first List.mem_cons_self
      have even : ((first :: others).any fun entry =>
          decide (entry.2.length ≠ rows)) = false := by
        refine List.any_eq_false.mpr fun entry member => ?_
        simp [columns.length entry member]
      have cells : ((first :: others).map fun entry =>
          (entry.1, JsonValue.arr
            (cleanColumn entry.2 (sampleIndices rows maxRows)))) =
          (first :: others).map fun entry => (entry.1, .arr (keptValues
            (entry.2.map .float) (sampleIndices rows maxRows))) := by
        refine List.map_congr_left fun entry member => ?_
        rw [cleanColumn_eq (columns.finite entry member)]
        exact fun index inside =>
          (columns.length entry member).symm ▸ sampleIndices_lt inside
      have names : ((first :: others).map fun entry =>
          JsonValue.str entry.1) =
            ((first :: others).map Prod.fst).map .str := by
        rw [List.map_map]
        rfl
      simp only [featureSample, own, even, Nat.not_lt.mpr positive,
        columns.nonempty.ne', Bool.false_eq_true, if_false, cells, names]
      rfl

theorem columnOf_notebook {entry : String × List UInt64}
    (columns : FiniteColumns data rows) (member : entry ∈ data) :
    columnOf (notebookSample data rows maxRows) entry.1 =
      keptValues (entry.2.map .float) (sampleIndices rows maxRows) := by
  refine columnOf_eq rfl ?_
  have found : (data.map fun entry => (entry.1, JsonValue.arr (keptValues
      (entry.2.map .float) (sampleIndices rows maxRows)))).lookup entry.1 =
        some (.arr (keptValues (entry.2.map .float)
          (sampleIndices rows maxRows))) := by
    have once := columns.once
    clear columns
    induction data with
    | nil => cases member
    | cons first data induction =>
        obtain ⟨fresh, later⟩ := List.nodup_cons.mp once
        rw [List.map_cons, List.lookup_cons]
        rcases List.mem_cons.mp member with rfl | inside
        · simp
        · have other : entry.1 ≠ first.1 := fun same =>
            fresh (same ▸ List.mem_map_of_mem inside)
          rw [beq_false_of_ne other]
          exact induction inside later
  rw [column, JsonValue.get, found]
  rfl

theorem notebookSample_isSample (columns : FiniteColumns data rows)
    (positive : 0 < maxRows) :
    IsSample (notebookSample data rows maxRows) (data.map Prod.fst)
      (data.map Prod.fst) (sampleIndices rows maxRows).length where
  version := rfl
  listed := rfl
  held := ⟨_, rfl⟩
  inputs := .refl _
  once := columns.once
  bound := fun empty => columns.some (List.map_eq_nil_iff.mp empty)
  clean name member value inside := by
    obtain ⟨entry, among, rfl⟩ := List.mem_map.mp member
    rw [columnOf_notebook columns among] at inside
    obtain ⟨index, kept, rfl⟩ := List.mem_map.mp inside
    have below : index < (entry.2.map JsonValue.float).length := by
      rw [List.length_map, columns.length entry among]
      exact sampleIndices_lt kept
    rw [List.getD_eq_getElem _ _ below, List.getElem_map]
    exact .inr ⟨columns.finite entry among _ (List.getElem_mem _), id⟩
  length name member := by
    obtain ⟨entry, among, rfl⟩ := List.mem_map.mp member
    rw [columnOf_notebook columns among, keptValues, List.length_map]
  nonempty := by
    rw [length_sampleIndices]
    exact Nat.lt_min.mpr ⟨columns.nonempty, positive⟩

/-- The platform keeps of all the rows what the notebook does. -/
theorem acceptedSample_notebook (columns : FiniteColumns data rows)
    (positive : 0 < maxRows) (all : rows ≤ maxRows) :
    acceptedSample (notebookSample data rows maxRows) =
      some (notebookSample data rows defaultMaxSampleRows) := by
  have indices := sampleIndices_of_le all
  have sample := notebookSample_isSample columns positive
  rw [indices, List.length_range] at sample
  have training : trainingRows (notebookSample data rows maxRows) rows =
      rows :=
    if_neg (Int.lt_irrefl _)
  have cells : ((data.map Prod.fst).map fun name => (name, JsonValue.arr
      (keptValues (columnOf (notebookSample data rows maxRows) name)
        (sampleIndices rows defaultMaxSampleRows)))) =
      data.map fun entry => (entry.1, .arr (keptValues
        (entry.2.map .float) (sampleIndices rows defaultMaxSampleRows))) := by
    rw [List.map_map]
    refine List.map_congr_left fun entry member => ?_
    have length : rows = (entry.2.map JsonValue.float).length := by
      rw [List.length_map, columns.length entry member]
    have whole : keptValues (entry.2.map JsonValue.float)
        (List.range rows) = entry.2.map .float := by
      rw [length]
      exact keptValues_range _
    rw [Function.comp_apply, columnOf_notebook columns member, indices,
      whole]
  rw [acceptedSample_eq sample, storedSample, training, cells]
  rfl

end Notebook

/-! ## Accepted samples -/

/-- What is stored holds the rows of the sample at the indices. -/
structure KeepsRows (fields stored : Fields) (names : List String)
    (rows : Nat) (indices : List Nat) : Prop where
  few : indices.length ≤ defaultMaxSampleRows
  increasing : indices.Pairwise (· < ·)
  first : indices.head? = some 0
  last : indices.getLast? = some (rows - 1)
  columns : ∀ name ∈ names, (columnOf fields name).length = rows ∧
    (columnOf stored name).map some =
      indices.map fun index => (columnOf fields name)[index]?
  complete : ∃ answers, sampleRows stored = some answers ∧
    Numbers (indices.map (rowOf fields names)) answers

structure StaysAccepted (python : Python) (fields stored : Fields)
    (baseSensors : List String) : Prop where
  kept : ∃ names rows indices,
    JsonValue.get fields "columns" = .arr (names.map .str) ∧
      KeepsRows fields stored names rows indices
  accepted : sampleRefusal python (.obj stored) baseSensors = .ok none
  fixed : acceptedSample stored = some stored
  counted : ∃ training samples : Int,
    JsonValue.get stored "n_training_rows" = .int training ∧
      JsonValue.get stored "n_samples" = .int samples ∧ samples ≤ training

theorem storedSample_keepsRows {names : List String} {rows : Nat}
    (sample : IsSample fields baseSensors names rows) :
    KeepsRows fields (storedSample fields names rows) names rows
      (sampleIndices rows defaultMaxSampleRows) where
  few := by
    rw [length_sampleIndices]
    exact Nat.min_le_right _ _
  increasing := sampleIndices_increasing (by decide)
  first := sampleIndices_head sample.nonempty (by decide)
  last := sampleIndices_last sample.nonempty (by decide)
  columns name member := by
    refine ⟨sample.length name member, ?_⟩
    rw [columnOf_stored member, keptValues, List.map_map]
    refine List.map_congr_left fun index inside => ?_
    have below : index < (columnOf fields name).length :=
      (sample.length name member).symm ▸ sampleIndices_lt inside
    rw [Function.comp_apply, List.getD_eq_getElem _ _ below,
      List.getElem?_eq_getElem below]
  complete := by
    obtain ⟨answers, taken, numbers⟩ :=
      sampleRows_sample (storedSample_isSample sample)
    refine ⟨answers, taken, ?_⟩
    have lines : (List.range
        (sampleIndices rows defaultMaxSampleRows).length).map
          (rowOf (storedSample fields names rows) names) =
        (sampleIndices rows defaultMaxSampleRows).map
          (rowOf fields names) := by
      refine List.ext_getElem (by simp) fun place _ inside => ?_
      rw [List.getElem_map, List.getElem_map, List.getElem_range]
      refine List.map_congr_left fun name member => ?_
      have below : place <
          (sampleIndices rows defaultMaxSampleRows).length := by
        simpa using inside
      rw [columnOf_stored member, keptValues,
        List.getD_eq_getElem _ _ (by simpa using below), List.getElem_map]
    rw [← lines]
    exact numbers

/-- What is stored of an accepted sample is its rows at evenly spaced indices,
is accepted again and stays as it is.  The notebook keeps the same rows. -/
theorem accepted_sample_stays (python : Python) :
    (∀ profile baseSensors,
      sampleRefusal python profile baseSensors = .ok none →
        ∃ fields stored, profile = .obj fields ∧
          acceptedSample fields = some stored ∧
            StaysAccepted python fields stored baseSensors) ∧
      ∀ data rows maxRows, FiniteColumns data rows → 0 < maxRows →
        ∃ sample, featureSample data maxRows = some sample ∧
          sampleRefusal python (.obj sample) (data.map Prod.fst) =
            .ok none ∧
          (∀ entry ∈ data, columnOf sample entry.1 =
            keptValues (entry.2.map .float) (sampleIndices rows maxRows)) ∧
          (rows ≤ maxRows → acceptedSample sample =
            featureSample data defaultMaxSampleRows) := by
  constructor
  · intro profile baseSensors accepted
    have object : ∃ fields, profile = .obj fields := by
      cases profile with
      | obj fields => exact ⟨fields, rfl⟩
      | null => cases accepted
      | bool value => cases accepted
      | int number => cases accepted
      | float bits => cases accepted
      | str text => cases accepted
      | arr items => cases accepted
    obtain ⟨fields, rfl⟩ := object
    obtain ⟨names, rows, sample⟩ := sampleRefusal_none_iff.mp accepted
    refine ⟨fields, _, rfl, acceptedSample_eq sample,
      ⟨names, rows, _, sample.listed, storedSample_keepsRows sample⟩,
      sampleRefusal_none_iff.mpr ⟨_, _, storedSample_isSample sample⟩,
      acceptedSample_stored sample, _, _, rfl, rfl, ?_⟩
    have total : (rows : Int) ≤ trainingRows fields rows := le_trainingRows
    have kept := length_sampleIndices rows defaultMaxSampleRows
    omega
  · intro data rows maxRows columns positive
    refine ⟨_, featureSample_eq columns positive,
      sampleRefusal_none_iff.mpr
        ⟨_, _, notebookSample_isSample columns positive⟩,
      fun entry member => columnOf_notebook columns member, fun all => ?_⟩
    rw [acceptedSample_notebook columns positive all]
    exact (featureSample_eq columns (by decide)).symm

/-- One column with a missing value. -/
def gappedSample : Fields :=
  [("schema_version", .int 2), ("columns", .arr [.str "temperature"]),
    ("sample", .obj [("temperature", .arr [.int 1, .null])])]

theorem accepted_sample_stays_gapped :
    ∃ stored, acceptedSample gappedSample = some stored ∧
      StaysAccepted ⟨fun _ => ""⟩ gappedSample stored ["temperature"] := by
  obtain ⟨fields, stored, is, kept, stays⟩ :=
    (accepted_sample_stays ⟨fun _ => ""⟩).1 (.obj gappedSample)
      ["temperature"] (by decide +kernel)
  cases is
  exact ⟨stored, kept, stays⟩

end IndustryFlow.Drift
