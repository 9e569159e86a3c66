import Mathlib.Data.List.Basic

/-!
# JSON values as Python sees them

What `json.loads` returns, with the operations that the services apply to a
value whose type they did not check: its truth, `x or y`, and `str`.
-/

namespace IndustryFlow

/-- A number is its text under `str`, and whether it is a zero. -/
inductive Json where
  | null
  | bool (value : Bool)
  | num (text : String) (zero : Bool)
  | str (text : String)
  | arr (items : List Json)
  | obj (fields : List (String × Json))

namespace Json

/-- `bool(value)`. -/
def truthy : Json → Bool
  | .null => false
  | .bool value => value
  | .num _ zero => !zero
  | .str text => text ≠ ""
  | .arr items => !items.isEmpty
  | .obj fields => !fields.isEmpty

/-- `value or other`. -/
def orElse (value other : Json) : Json :=
  if value.truthy then value else other

/-- `value == text` for a string. -/
def isStr (text : String) : Json → Bool
  | .str found => found = text
  | _ => false

/-- `str(value)`; `repr` is the text of a container. -/
def pyStr (repr : Json → String) : Json → String
  | .null => "None"
  | .bool true => "True"
  | .bool false => "False"
  | .num text _ => text
  | .str text => text
  | .arr items => repr (.arr items)
  | .obj fields => repr (.obj fields)

/-- `fields.get(key)`. -/
def get (fields : List (String × Json)) (key : String) : Json :=
  (fields.lookup key).getD .null

/-- `fields[key] = value`: a key that is there keeps its place. -/
def setItem (fields : List (String × Json)) (key : String) (value : Json) :
    List (String × Json) :=
  if key ∈ fields.map Prod.fst then
    fields.map fun field => if field.1 = key then (key, value) else field
  else fields ++ [(key, value)]

/-- The dictionary of an object's members, as they were written. -/
def dict (members : List (String × Json)) : List (String × Json) :=
  members.foldl (fun fields member => setItem fields member.1 member.2) []

@[simp] theorem isStr_iff {text : String} {value : Json} :
    value.isStr text = true ↔ value = .str text := by
  cases value with
  | str found => simp [isStr]
  | null => simp [isStr]
  | bool value => simp [isStr]
  | num shown zero => simp [isStr]
  | arr items => simp [isStr]
  | obj fields => simp [isStr]

/-! ## Dictionaries -/

theorem keys_setItem (fields : List (String × Json)) (key : String)
    (value : Json) :
    (setItem fields key value).map Prod.fst =
      if key ∈ fields.map Prod.fst then fields.map Prod.fst
      else fields.map Prod.fst ++ [key] := by
  unfold setItem
  split
  · rw [List.map_map]
    refine List.map_congr_left fun field _ => ?_
    simp only [Function.comp_apply]
    split
    · rename_i same
      exact same.symm
    · rfl
  · simp

private theorem lookup_of_not_mem {fields : List (String × Json)}
    {key : String} (absent : key ∉ fields.map Prod.fst) :
    fields.lookup key = none := by
  rw [List.lookup_eq_none_iff]
  intro field member
  refine bne_iff_ne.mpr fun same => absent ?_
  exact same ▸ List.mem_map_of_mem member

private theorem lookup_replace (fields : List (String × Json))
    (key other : String) (value : Json) :
    (fields.map fun field =>
      if field.1 = key then (key, value) else field).lookup other =
      if other = key then (fields.lookup key).map fun _ => value
      else fields.lookup other := by
  induction fields with
  | nil => simp
  | cons first fields induction =>
      rw [List.map_cons, List.lookup_cons, List.lookup_cons,
        List.lookup_cons, induction]
      by_cases own : first.1 = key
      · by_cases same : other = key
        · simp [own, same]
        · simp [own, same, beq_false_of_ne same]
      · by_cases same : other = key
        · simp [own, same, beq_false_of_ne (Ne.symm own)]
        · simp [own, same]

/-- A key that is set holds the value; every other key is as it was. -/
theorem get_setItem (fields : List (String × Json)) (key other : String)
    (value : Json) :
    get (setItem fields key value) other =
      if other = key then value else get fields other := by
  unfold setItem get
  by_cases present : key ∈ fields.map Prod.fst
  · rw [if_pos present, lookup_replace]
    by_cases same : other = key
    · rw [if_pos same, if_pos same]
      obtain ⟨field, member, rfl⟩ := List.mem_map.mp present
      have found : (fields.lookup field.1).isSome = true :=
        List.lookup_isSome_iff.mpr ⟨field, member, by simp⟩
      obtain ⟨old, found⟩ := Option.isSome_iff_exists.mp found
      rw [found]
      rfl
    · rw [if_neg same, if_neg same]
  · rw [if_neg present, List.lookup_append]
    by_cases same : other = key
    · subst same
      rw [lookup_of_not_mem present]
      simp
    · rw [if_neg same, List.lookup_cons, beq_false_of_ne same]
      simp

end Json

end IndustryFlow
