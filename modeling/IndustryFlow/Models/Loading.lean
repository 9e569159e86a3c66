import IndustryFlow.Fallible
import IndustryFlow.Models.SkopsTrust

/-!
# What a load reads and builds

Whatever a manifest says and a directory holds, a load reads one regular file
of the directory, with `skops.io.load` under the trust of the provenance or
into a class of xgboost, or it reads nothing.  The trust that the manifest
itself declares makes no difference.
-/

namespace IndustryFlow.Loading

open Files

/-! ## The checks -/

section Checks

variable {writer : Writer}

theorem entriesOf_ok {value : Value} {entries : List (Option String × Value)}
    (read : entriesOf value = .ok entries) : value = .map entries := by
  cases value with
  | map found =>
      cases read
      rfl
  | _ => cases read

theorem isOneOf_ok {names : List String} {value : Value}
    (known : isOneOf names value = .ok true) :
    ∃ name ∈ names, value = .str name := by
  cases value with
  | str text =>
      rw [isOneOf, Except.ok.injEq, decide_eq_true_eq] at known
      exact ⟨text, known, rfl⟩
  | seq items => cases known
  | map entries => cases known
  | scalar text repr truth => cases known
  | null => cases known

/-- What holds of a manifest that is not refused. -/
structure Admitted (flavors : Value) : Prop where
  noCode : ∀ entries, flavors = .map entries →
    ∀ entry ∈ entries, shipsCode entry.2 = false
  loader : ∃ entries fields loader, flavors = .map entries ∧
    Value.get entries "python_function" = some (.map fields) ∧
      Value.get fields "loader_module" = some (.str loader) ∧
        loader ∈ platformLoaders

theorem orEmpty_truthy {value : Option Value}
    (truthy : (orEmpty value).truthy = true) :
    value = some (orEmpty value) := by
  cases value with
  | none => cases truthy
  | some found =>
      by_cases true_ : found.truthy = true
      · rw [orEmpty, if_pos true_]
      · rw [orEmpty, if_neg true_] at truthy
        cases truthy

theorem getD_str {value : Option Value} {text : String}
    (found : value.getD .null = .str text) : value = some (.str text) := by
  cases value with
  | none => cases found
  | some value => exact congrArg some found

theorem refuseAuthorCode_ok {flavors : Value}
    (passed : refuseAuthorCode writer flavors = .ok ()) :
    Admitted flavors := by
  obtain ⟨entries, read, passed⟩ := bind_ok_iff.mp passed
  cases entriesOf_ok read
  dsimp only at passed
  split at passed
  · cases passed
  · rename_i present
    split at passed
    · cases passed
    · rename_i codeless
      obtain ⟨fields, mapping, passed⟩ := bind_ok_iff.mp passed
      obtain ⟨known, among, passed⟩ := bind_ok_iff.mp passed
      split at passed
      · cases passed
      · rename_i listed
        have truth : known = true := by simpa using listed
        rw [truth] at among
        obtain ⟨loader, member, named⟩ := isOneOf_ok among
        constructor
        · intro found same entry inside
          cases same
          simpa using fun shipped =>
            codeless (List.any_eq_true.mpr ⟨entry, inside, shipped⟩)
        · have truthy : (orEmpty (Value.get entries
              "python_function")).truthy = true := by simpa using present
          have python := orEmpty_truthy truthy
          rw [entriesOf_ok mapping] at python
          exact ⟨entries, fields, loader, rfl, python, getD_str named, member⟩

end Checks

/-! ## The file -/

variable (download : Download)

/-- The real path of the directory. -/
def Download.root : Path :=
  realpath download.tree download.dir

/-- A regular file of the directory, that no link leads out of. -/
structure Inside (path : Path) : Prop where
  under : download.root <+: path
  regular : download.tree.node path = some .file
  only : ∀ steps found,
    follow download.tree steps [] path = some found → found = path

variable {download}

theorem fileInside_ok {name : String} {path : Path}
    (found : fileInside download.tree download.root name = .ok path) :
    Inside download path := by
  obtain ⟨resolved, real, found⟩ := bind_ok_iff.mp found
  split at found
  · rename_i checked
    cases found
    obtain ⟨common, regular⟩ := Bool.and_eq_true_iff.mp checked
    rw [resolve] at real
    split at real
    · cases real
    · cases real
      constructor
      · exact commonpath_eq_left.mp (of_decide_eq_true common)
      · exact isFile_realpath regular
      · exact fun steps found leads => follow_realpath leads
  · cases found

section Loaders

variable {writer : Writer}

theorem checkSkops_ok {path : Path} {predictFn : String}
    (checked : checkSkops writer download = .ok (path, predictFn)) :
    Inside download path := by
  obtain ⟨entries, -, checked⟩ := bind_ok_iff.mp checked
  dsimp only at checked
  split at checked
  · cases checked
  · obtain ⟨fields, -, checked⟩ := bind_ok_iff.mp checked
    split at checked
    · cases checked
    · obtain ⟨known, -, checked⟩ := bind_ok_iff.mp checked
      split at checked
      · cases checked
      · obtain ⟨name, -, checked⟩ := bind_ok_iff.mp checked
        obtain ⟨found, opened, checked⟩ := bind_ok_iff.mp checked
        cases checked
        exact fileInside_ok opened

theorem xgboostClass_ok {entries conf : List (Option String × Value)}
    {modelClass : String}
    (named : xgboostClass writer entries = .ok (modelClass, conf)) :
    modelClass ∈ xgboostModelClasses := by
  rw [xgboostClass] at named
  split at named
  · obtain ⟨known, among, named⟩ := bind_ok_iff.mp named
    split at named
    · rename_i listed
      rw [listed] at among
      obtain ⟨name, member, same⟩ := isOneOf_ok among
      cases named
      rw [same]
      exact member
    · cases named
  · cases named

theorem checkXgboost_ok {modelClass : String} {path : Path}
    (checked : checkXgboost writer download = .ok (modelClass, path)) :
    modelClass ∈ xgboostModelClasses ∧ Inside download path := by
  obtain ⟨entries, -, checked⟩ := bind_ok_iff.mp checked
  obtain ⟨fields, -, checked⟩ := bind_ok_iff.mp checked
  dsimp only at checked
  split at checked
  · cases checked
  · split at checked
    · cases checked
    · obtain ⟨⟨named, conf⟩, chosen, checked⟩ := bind_ok_iff.mp checked
      obtain ⟨found, opened, checked⟩ := bind_ok_iff.mp checked
      cases checked
      exact ⟨xgboostClass_ok chosen, fileInside_ok opened⟩

end Loaders

/-! ## The trust that a manifest declares -/

/-- A conf without its declared trust. -/
def dropTrust : Value → Value
  | .map fields =>
      .map (fields.filter fun field => field.1 ≠ some "skops_trusted_types")
  | other => other

def forget (entry : Option String × Value) : Option String × Value :=
  if entry.1 = some "sklearn" then (entry.1, dropTrust entry.2) else entry

/-- The flavors without the trust that the sklearn flavor declares. -/
def withoutTrust : Value → Value
  | .map entries => .map (entries.map forget)
  | other => other

theorem forget_name (name : Option String) (value : Value) :
    ∃ kept, forget (name, value) = (name, kept) := by
  rw [forget]
  split
  · exact ⟨dropTrust value, rfl⟩
  · exact ⟨value, rfl⟩

theorem get_forget (entries : List (Option String × Value)) (key : String) :
    Value.get (entries.map forget) key =
      (Value.get entries key).map fun value =>
        if key = "sklearn" then dropTrust value else value := by
  induction entries with
  | nil => rfl
  | cons entry entries induction =>
      obtain ⟨name, value⟩ := entry
      by_cases same : name = some key
      · subst same
        by_cases sklearn : key = "sklearn"
        · subst sklearn
          simp [Value.get, forget, List.lookup_cons_self]
        · simp [Value.get, forget, sklearn, List.lookup_cons_self]
      · have apart : some key ≠ name := fun equal => same equal.symm
        obtain ⟨kept, forgotten⟩ := forget_name name value
        have first : ((name, value) :: entries).lookup (some key) =
            entries.lookup (some key) := lookup_cons_ne apart
        have second : ((name, kept) :: entries.map forget).lookup (some key) =
            (entries.map forget).lookup (some key) := lookup_cons_ne apart
        rw [Value.get, Value.get, first, List.map_cons, forgotten, second]
        exact induction

theorem get_other (entries : List (Option String × Value)) {key : String}
    (other : key ≠ "sklearn") :
    Value.get (entries.map forget) key = Value.get entries key := by
  rw [get_forget]
  simp [other]

theorem get_dropTrust {fields : List (Option String × Value)} {key : String}
    (other : key ≠ "skops_trusted_types") :
    Value.get (fields.filter fun field =>
      field.1 ≠ some "skops_trusted_types") key = Value.get fields key := by
  induction fields with
  | nil => rfl
  | cons field fields induction =>
      obtain ⟨name, value⟩ := field
      by_cases same : name = some key
      · subst same
        rw [List.filter_cons_of_pos (by simp [other])]
        simp [Value.get, List.lookup_cons_self]
      · have apart : some key ≠ name := fun equal => same equal.symm
        have skip (rest : List (Option String × Value)) :
            ((name, value) :: rest).lookup (some key) =
              rest.lookup (some key) := lookup_cons_ne apart
        by_cases declared : name = some "skops_trusted_types"
        · rw [List.filter_cons_of_neg (by simp [declared]), induction]
          exact (skip fields).symm
        · rw [List.filter_cons_of_pos (by simp [declared])]
          exact (skip _).trans (induction.trans (skip fields).symm)

theorem shipsCode_forget (entry : Option String × Value) :
    shipsCode (forget entry).2 = shipsCode entry.2 := by
  rw [forget]
  split
  · cases stored : entry.2 with
    | map fields =>
        rw [dropTrust, shipsCode, get_dropTrust (by decide), shipsCode]
    | _ => rfl
  · rfl

theorem any_shipsCode (entries : List (Option String × Value)) :
    ((entries.map forget).any fun entry => shipsCode entry.2) =
      entries.any fun entry => shipsCode entry.2 := by
  rw [List.any_map]
  congr 1
  funext entry
  exact shipsCode_forget entry

/-! ## The checks of what is left -/

theorem truthy_dropTrust {fields : List (Option String × Value)}
    (empty : (dropTrust (.map fields)).truthy = false) {key : String}
    (other : key ≠ "skops_trusted_types") : Value.get fields key = none := by
  have none_left : (fields.filter fun field =>
      field.1 ≠ some "skops_trusted_types") = [] := by
    simpa [dropTrust, Value.truthy] using empty
  rw [← get_dropTrust other, none_left]
  rfl

/-- What the dispatch reads of the format. -/
def isSkops : Option Value → Bool
  | some (.str format) => format = "skops"
  | _ => false

/-- What the dispatch reads of the sklearn flavor. -/
def skopsConf : Option Value → Except Failure Bool
  | none => .ok false
  | some conf =>
      if conf.truthy then do
        let fields ← entriesOf conf
        .ok (isSkops (Value.get fields "serialization_format"))
      else .ok false

theorem isSkopsSklearn_map (entries : List (Option String × Value)) :
    isSkopsSklearn (.map entries) =
      skopsConf (Value.get entries "sklearn") := by
  change (match Value.get entries "sklearn" with
    | none => _
    | some conf => _) = _
  cases Value.get entries "sklearn" with
  | none => rfl
  | some conf =>
      rw [skopsConf]
      change (if conf.truthy = true then _ else _) = _
      by_cases truthy : conf.truthy = true
      · rw [if_pos truthy, if_pos truthy]
        cases conf with
        | map fields =>
            change (match Value.get fields "serialization_format" with
              | some (.str format) => _
              | _ => _) =
                Except.ok (isSkops (Value.get fields "serialization_format"))
            cases Value.get fields "serialization_format" with
            | none => rfl
            | some format =>
                cases format with
                | _ => rfl
        | _ => rfl
      · rw [if_neg truthy, if_neg truthy]
        rfl

theorem skopsConf_dropTrust (conf : Value) :
    skopsConf (some (dropTrust conf)) = skopsConf (some conf) := by
  cases conf with
  | map fields =>
      by_cases kept : (dropTrust (.map fields)).truthy = true
      · have truthy : (Value.map fields).truthy = true := by
          cases fields with
          | nil => exact kept
          | cons field fields => rfl
        rw [skopsConf, skopsConf, if_pos kept, if_pos truthy, dropTrust]
        change Except.ok (isSkops (Value.get (fields.filter _) _)) =
          Except.ok (isSkops (Value.get fields _))
        rw [get_dropTrust (by decide)]
      · have absent : Value.get fields "serialization_format" = none :=
          truthy_dropTrust (Bool.eq_false_iff.mpr kept) (by decide)
        rw [skopsConf, skopsConf, if_neg kept]
        split
        · change _ = Except.ok (isSkops (Value.get fields _))
          rw [absent]
          rfl
        · rfl
  | _ => rfl

theorem isSkopsSklearn_withoutTrust (flavors : Value) :
    isSkopsSklearn (withoutTrust flavors) = isSkopsSklearn flavors := by
  cases flavors with
  | map entries =>
      rw [withoutTrust, isSkopsSklearn_map, isSkopsSklearn_map, get_forget]
      cases Value.get entries "sklearn" with
      | none => rfl
      | some conf => exact skopsConf_dropTrust conf
  | _ => rfl

section Forgotten

variable (writer : Writer)

theorem python_forget (entries : List (Option String × Value)) :
    Value.get (entries.map forget) "python_function" =
      Value.get entries "python_function" :=
  get_other entries (by decide)

theorem xgboost_forget (entries : List (Option String × Value)) :
    Value.get (entries.map forget) "xgboost" = Value.get entries "xgboost" :=
  get_other entries (by decide)

theorem xgboostClass_forget (entries : List (Option String × Value)) :
    xgboostClass writer (entries.map forget) = xgboostClass writer entries := by
  rw [xgboostClass, xgboost_forget]
  rfl

theorem refuseAuthorCode_withoutTrust (flavors : Value) :
    refuseAuthorCode writer (withoutTrust flavors) =
      refuseAuthorCode writer flavors := by
  cases flavors with
  | map entries =>
      have skops := isSkopsSklearn_withoutTrust (.map entries)
      rw [withoutTrust] at skops
      simp only [refuseAuthorCode, withoutTrust, entriesOf, bind, Except.bind,
        python_forget, any_shipsCode, skops, xgboostClass_forget]
  | _ => rfl

theorem refusePathsOutside_withoutTrust :
    refusePathsOutside writer
        { download with flavors := withoutTrust download.flavors } =
      refusePathsOutside writer download := by
  obtain ⟨tree, dir, flavors⟩ := download
  cases flavors with
  | map entries =>
      simp only [refusePathsOutside, withoutTrust, entriesOf, bind,
        Except.bind, python_forget, xgboost_forget]
  | _ => rfl

theorem checkSkops_withoutTrust :
    checkSkops writer
        { download with flavors := withoutTrust download.flavors } =
      checkSkops writer download := by
  obtain ⟨tree, dir, flavors⟩ := download
  cases flavors with
  | map entries =>
      simp only [checkSkops, withoutTrust, entriesOf, bind, Except.bind,
        python_forget]
  | _ => rfl

theorem checkXgboost_withoutTrust :
    checkXgboost writer
        { download with flavors := withoutTrust download.flavors } =
      checkXgboost writer download := by
  obtain ⟨tree, dir, flavors⟩ := download
  cases flavors with
  | map entries =>
      simp only [checkXgboost, withoutTrust, entriesOf, bind, Except.bind,
        python_forget, xgboostClass_forget]
  | _ => rfl

variable {Estimator : Type} (runtime : Runtime Estimator)

/-- The trust that a manifest declares makes no difference. -/
theorem loadPyfunc_withoutTrust (download : Download)
    (provenance : Option String) :
    loadPyfunc writer runtime
        { download with flavors := withoutTrust download.flavors }
        provenance = loadPyfunc writer runtime download provenance := by
  rw [loadPyfunc, loadPyfunc, refusePathsOutside_withoutTrust,
    refuseAuthorCode_withoutTrust, isSkopsSklearn_withoutTrust]
  simp only [loadLocalSkops, loadLocalXgboost, checkSkops_withoutTrust,
    checkXgboost_withoutTrust]

end Forgotten

/-! ## Every load -/

/-- Reads of one regular file of the directory, by skops under the trust of
the provenance or into a class of xgboost. -/
inductive Reads (download : Download) (provenance : Option String) :
    List Effect → Prop where
  | skops {path : Path} (inside : Inside download path) :
      Reads download provenance [.skopsLoad path
        (if provenance = some "kernel" then some kernelTrustedTypes else none)]
  | xgboost {modelClass : String} {path : Path}
      (listed : modelClass ∈ xgboostModelClasses)
      (inside : Inside download path) :
      Reads download provenance [.importModule (moduleOf modelClass),
        .construct modelClass, .loadModel modelClass path]

variable {Estimator : Type} (writer : Writer) (runtime : Runtime Estimator)
  (provenance : Option String)

/-- The effects of a load are the start of such a read, and all of it where
the load answers a model. -/
structure Contained (download : Download) (provenance : Option String)
    (outcome : Outcome Estimator) : Prop where
  started : outcome.effects = [] ∨
    ∃ effects, Reads download provenance effects ∧
      outcome.effects <+: effects
  finished : ∀ loaded, outcome.result = .ok loaded →
    Reads download provenance outcome.effects

theorem contained_refused (failure : Failure) :
    Contained download provenance
      (⟨.error failure, []⟩ : Outcome Estimator) := by
  constructor
  · exact .inl rfl
  · intro loaded answered
    cases answered

theorem loadLocalSkops_contained :
    Contained download provenance
      (loadLocalSkops writer runtime download provenance) := by
  rw [loadLocalSkops]
  cases checked : checkSkops writer download with
  | error failure => exact contained_refused provenance failure
  | ok answer =>
      obtain ⟨path, predictFn⟩ := answer
      have reads : Reads download provenance _ := .skops (checkSkops_ok checked)
      constructor
      · exact .inr ⟨_, reads, List.prefix_refl _⟩
      · intro loaded answered
        exact reads

theorem loadLocalXgboost_contained :
    Contained download provenance
      (loadLocalXgboost writer runtime download) := by
  rw [loadLocalXgboost]
  cases checked : checkXgboost writer download with
  | error failure => exact contained_refused provenance failure
  | ok answer =>
      obtain ⟨modelClass, path⟩ := answer
      obtain ⟨listed, inside⟩ := checkXgboost_ok checked
      have reads : Reads download provenance _ := .xgboost listed inside
      dsimp only
      cases runtime.importModule (moduleOf modelClass) with
      | error failure =>
          constructor
          · exact .inr ⟨_, reads, List.prefix_append [_] _⟩
          · intro loaded answered
            cases answered
      | ok imported =>
          dsimp only
          cases runtime.construct modelClass with
          | error failure =>
              constructor
              · exact .inr ⟨_, reads, List.prefix_append [_, _] _⟩
              · intro loaded answered
                cases answered
          | ok constructed =>
              constructor
              · exact .inr ⟨_, reads, List.prefix_refl _⟩
              · intro loaded answered
                exact reads

theorem loadPyfunc_contained :
    Contained download provenance
      (loadPyfunc writer runtime download provenance) := by
  rw [loadPyfunc]
  split
  · exact contained_refused provenance _
  · exact loadLocalSkops_contained writer runtime provenance
  · exact loadLocalXgboost_contained writer runtime provenance

theorem loadPyfunc_admitted {loaded : Loaded Estimator}
    (answered : (loadPyfunc writer runtime download provenance).result =
      .ok loaded) : Admitted download.flavors := by
  rw [loadPyfunc] at answered
  cases checked : refuseAuthorCode writer download.flavors with
  | error failure =>
      rw [checked] at answered
      cases answered
  | ok passed => exact refuseAuthorCode_ok checked

/-- The artifact never chooses what runs, and its declared trust is not
read. -/
theorem artifact_never_chooses (download : Download) :
    Contained download provenance
        (loadPyfunc writer runtime download provenance) ∧
      (∀ loaded,
        (loadPyfunc writer runtime download provenance).result = .ok loaded →
          Admitted download.flavors) ∧
      ∀ flavors, withoutTrust flavors = withoutTrust download.flavors →
        loadPyfunc writer runtime { download with flavors := flavors }
            provenance =
          loadPyfunc writer runtime download provenance := by
  constructor
  · exact loadPyfunc_contained writer runtime provenance
  · constructor
    · intro loaded answered
      exact loadPyfunc_admitted writer runtime provenance answered
    · intro flavors same
      have other : loadPyfunc writer runtime
            { download with flavors := withoutTrust flavors } provenance =
          loadPyfunc writer runtime
            { download with flavors := flavors } provenance :=
        loadPyfunc_withoutTrust writer runtime
          { download with flavors := flavors } provenance
      rw [← other, same]
      exact loadPyfunc_withoutTrust writer runtime download provenance

/-- A model that names its file beside the manifest is read. -/
example (writer : Writer) :
    (loadPyfunc writer
      { skopsLoad := fun _ _ => .ok ()
        importModule := fun _ => .ok ()
        construct := fun _ => .ok ()
        loadModel := fun _ _ => .ok () }
      { tree :=
          { nodes := [(["model"], .directory),
              (["model", "model.skops"], .file)]
            nested := by decide
            patience := 40 }
        dir := ["model"]
        flavors := .map [
          (some "python_function", .map [
            (some "loader_module", .str "mlflow.sklearn"),
            (some "model_path", .str "model.skops")]),
          (some "sklearn", .map [
            (some "serialization_format", .str "skops")])] }
      (some "kernel")).effects =
        [.skopsLoad ["model", "model.skops"] (some kernelTrustedTypes)] := by
  rfl

end IndustryFlow.Loading
