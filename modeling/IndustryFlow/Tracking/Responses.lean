import IndustryFlow.Tracking.Proxy

/-!
# Responses in the tenant's names

The names of a response are returned without the tenant's prefix, and an entry
with a name of another tenant is dropped from its list or nulled.  An entry
that has no name, or a name that is not a text, stays as it is.
-/

namespace IndustryFlow.Tracking

open Tenancy

/-! ## Name paths -/

/-- The response paths of `NAME_FIELDS`, where there are any. -/
def namePaths : List (String × List String) := [
  ("experiments/get-by-name", ["experiment.name"]),
  ("experiments/get", ["experiment.name"]),
  ("experiments/search", ["experiments[].name"]),
  ("registered-models/create", ["registered_model.name"]),
  ("registered-models/get", ["registered_model.name"]),
  ("registered-models/search", ["registered_models[].name"]),
  ("registered-models/update", ["registered_model.name"]),
  ("model-versions/create", ["model_version.name"]),
  ("model-versions/get", ["model_version.name"]),
  ("model-versions/search", ["model_versions[].name"]),
  ("registered-models/rename", ["registered_model.name"]),
  ("registered-models/get-latest-versions", ["model_versions[].name"]),
  ("registered-models/alias", ["model_version.name"]),
  ("model-versions/update", ["model_version.name"]),
  ("model-versions/transition-stage", ["model_version.name"])]

/-- `response_name_paths`. -/
def responseNamePaths (endpoint : Text) : List String :=
  match namePaths.find? (·.1.toList = endpoint) with
  | some entry => entry.2
  | none => []

section

variable (company : Company)

end

/-! ## What is scoped -/

/-- A path to the names of a list, or to the name of one object. -/
inductive NamePath where
  | list (key : String)
  | object (key : String)
deriving DecidableEq

def NamePath.text : NamePath → String
  | .list key => key ++ "[].name"
  | .object key => key ++ ".name"

def NamePath.key : NamePath → String
  | .list key | .object key => key

/-- The name of an entry. -/
def nameOf : Json → Option String
  | .obj fields =>
      match fields.lookup "name" with
      | some (.str name) => some name
      | _ => none
  | _ => none

/-- The entry has a name, and not one of the tenant. -/
def foreign (company : Company) (entry : Json) : Bool :=
  match nameOf entry with
  | some name => !(namePrefix company).isPrefixOf name.toList
  | none => false

/-- What a response becomes, where `left` says what an entry that is left in
place was and is. -/
structure Filtered (company : Company) (left : Json → Json → Prop)
    (path : NamePath) (before after : List (String × Json)) : Prop where
  others : ∀ key, key ≠ path.key → Json.get after key = Json.get before key
  keys : after.map Prod.fst = before.map Prod.fst
  list : ∀ key items, path = .list key → Json.get before key = .arr items →
    ∃ entries, Json.get after key = .arr entries ∧
      List.Forall₂ left (items.filter (!foreign company ·)) entries
  object : ∀ key child, path = .object key →
    Json.get before key = .obj child →
      if foreign company (.obj child) then Json.get after key = .null
      else left (.obj child) (Json.get after key)
  shapes : (∃ key items, path = .list key ∧
      Json.get before key = .arr items) ∨
    (∃ key child, path = .object key ∧ Json.get before key = .obj child) ∨
    after = before

/-! ## One entry -/

/-- A key that the path's own signs do not occur in. -/
def isBareKey (key : String) : Bool :=
  key.toList.all (· ∉ ['.', '[', ']'])

/-- What a response becomes at the endpoint. -/
def Answered (company : Company) (left : Json → Json → Prop)
    (endpoint : Text) (before after : Json) : Prop :=
  match before with
  | .obj fields => ∃ scopedFields, after = .obj scopedFields ∧
      if responseNamePaths endpoint = [] then scopedFields = fields
      else ∃ path : NamePath, responseNamePaths endpoint = [path.text] ∧
        isBareKey path.key = true ∧
        Filtered company left path fields scopedFields
  | before => after = before

end IndustryFlow.Tracking
