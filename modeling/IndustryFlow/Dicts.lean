import Mathlib.Data.List.Basic

/-!
# Dictionaries

A dictionary is the list of its entries in their order.  Setting a key that is
there keeps its place, and a new one comes last.
-/

namespace Dicts

variable {Key Value : Type} [DecidableEq Key]

/-- `fields[key] = value`. -/
def set (fields : List (Key × Value)) (key : Key) (value : Value) :
    List (Key × Value) :=
  if key ∈ fields.map Prod.fst then
    fields.map fun field => if field.1 = key then (key, value) else field
  else fields ++ [(key, value)]

/-- The entries under other keys. -/
def without (fields : List (Key × Value)) (key : Key) :
    List (Key × Value) :=
  fields.filter fun field => field.1 ≠ key

/-- `move_to_end`, which raises a KeyError for a key that is not there. -/
def moveToEnd (fields : List (Key × Value)) (key : Key) :
    Option (List (Key × Value)) :=
  (fields.lookup key).map fun value => without fields key ++ [(key, value)]

theorem lookup_replace (fields : List (Key × Value)) (key other : Key)
    (value : Value) :
    (fields.map fun field =>
      if field.1 = key then (key, value) else field).lookup other =
      if other = key then (fields.lookup key).map fun _ => value
      else fields.lookup other := by
  induction fields with
  | nil => simp
  | cons first fields induction =>
      rw [List.map_cons, List.lookup_cons, List.lookup_cons,
        List.lookup_cons, induction]
      by_cases own : first.1 = key
      · by_cases same : other = key
        · simp [own, same]
        · simp [own, same, beq_false_of_ne same]
      · by_cases same : other = key
        · simp [own, same, beq_false_of_ne (Ne.symm own)]
        · simp [own, same]

theorem lookup_of_not_mem {fields : List (Key × Value)} {key : Key}
    (missing : key ∉ fields.map Prod.fst) : fields.lookup key = none := by
  rw [List.lookup_eq_none_iff]
  intro field member
  refine bne_iff_ne.mpr fun same => missing ?_
  exact same ▸ List.mem_map_of_mem member

/-- A key that is set holds the value; every other key is as it was. -/
theorem lookup_set (fields : List (Key × Value)) (key other : Key)
    (value : Value) :
    (set fields key value).lookup other =
      if other = key then some value else fields.lookup other := by
  unfold set
  by_cases present : key ∈ fields.map Prod.fst
  · rw [if_pos present, lookup_replace]
    by_cases same : other = key
    · rw [if_pos same, if_pos same]
      obtain ⟨field, member, rfl⟩ := List.mem_map.mp present
      have found : (fields.lookup field.1).isSome = true :=
        List.lookup_isSome_iff.mpr ⟨field, member, by simp⟩
      obtain ⟨old, found⟩ := Option.isSome_iff_exists.mp found
      rw [found]
      rfl
    · rw [if_neg same, if_neg same]
  · rw [if_neg present, List.lookup_append]
    by_cases same : other = key
    · subst same
      rw [lookup_of_not_mem present]
      simp
    · rw [if_neg same, List.lookup_cons, beq_false_of_ne same]
      simp

theorem keys_set (fields : List (Key × Value)) (key : Key) (value : Value) :
    (set fields key value).map Prod.fst =
      if key ∈ fields.map Prod.fst then fields.map Prod.fst
      else fields.map Prod.fst ++ [key] := by
  unfold set
  by_cases present : key ∈ fields.map Prod.fst
  · rw [if_pos present, if_pos present, List.map_map]
    refine List.map_congr_left fun field _ => ?_
    rw [Function.comp_apply]
    split
    · rename_i own
      exact own.symm
    · rfl
  · rw [if_neg present, if_neg present, List.map_append, List.map_singleton]

theorem nodup_set {fields : List (Key × Value)}
    (once : (fields.map Prod.fst).Nodup) (key : Key) (value : Value) :
    ((set fields key value).map Prod.fst).Nodup := by
  rw [keys_set]
  split
  · exact once
  · rename_i missing
    refine List.nodup_append.mpr ⟨once, List.pairwise_singleton _ key, ?_⟩
    rintro other member same own rfl
    rw [List.mem_singleton.mp own] at member
    exact missing member

theorem lookup_of_mem {fields : List (Key × Value)}
    (once : (fields.map Prod.fst).Nodup) {key : Key} {value : Value}
    (member : (key, value) ∈ fields) : fields.lookup key = some value := by
  induction fields with
  | nil => cases member
  | cons first fields induction =>
      rw [List.map_cons, List.nodup_cons] at once
      rw [List.lookup_cons]
      rcases List.mem_cons.mp member with rfl | later
      · rw [beq_self_eq_true]
      · have apart : key ≠ first.1 := by
          rintro rfl
          exact once.1 (List.mem_map.mpr ⟨(first.1, value), later, rfl⟩)
        rw [beq_false_of_ne apart]
        exact induction once.2 later

/-- Only entries under other keys are left when one is put in place. -/
theorem filter_set {keep : Key → Bool} {key : Key}
    (dropped : keep key = false) (fields : List (Key × Value))
    (value : Value) :
    (set fields key value).filter (fun field => keep field.1) =
      fields.filter fun field => keep field.1 := by
  unfold set
  by_cases present : key ∈ fields.map Prod.fst
  · rw [if_pos present]
    clear present
    induction fields with
    | nil => rfl
    | cons first fields induction =>
        rw [List.map_cons, List.filter_cons, List.filter_cons, induction]
        by_cases own : first.1 = key
        · simp [own, dropped]
        · simp [own]
  · simp [if_neg present, List.filter_append, dropped]

theorem filter_without {keep : Key → Bool} {key : Key}
    (dropped : keep key = false) (fields : List (Key × Value)) :
    (without fields key).filter (fun field => keep field.1) =
      fields.filter fun field => keep field.1 := by
  rw [without, List.filter_filter]
  refine List.filter_congr fun field _ => ?_
  by_cases own : field.1 = key
  · simp [own, dropped]
  · simp [own]

theorem lookup_filter (keep : Key → Bool) (fields : List (Key × Value))
    (key : Key) :
    (fields.filter fun field => keep field.1).lookup key =
      if keep key = true then fields.lookup key else none := by
  induction fields with
  | nil => simp
  | cons first fields induction =>
      rw [List.filter_cons, List.lookup_cons]
      by_cases own : key = first.1
      · subst own
        by_cases kept : keep first.1 = true
        · rw [if_pos kept, if_pos kept, List.lookup_cons_self]
          simp
        · rw [if_neg kept, induction, if_neg kept, if_neg kept]
      · rw [beq_false_of_ne own]
        by_cases kept : keep first.1 = true
        · rw [if_pos kept, List.lookup_cons, beq_false_of_ne own]
          exact induction
        · rw [if_neg kept]
          exact induction

theorem lookup_without (fields : List (Key × Value)) (key other : Key) :
    (without fields key).lookup other =
      if other = key then none else fields.lookup other := by
  rw [without, lookup_filter (fun field => decide (field ≠ key))]
  by_cases same : other = key
  · simp [same]
  · simp [same]

theorem without_set (fields : List (Key × Value)) (key : Key)
    (value : Value) : without (set fields key value) key =
      without fields key :=
  @filter_set _ _ _ (fun other => decide (other ≠ key)) key
    (decide_eq_false fun differs => differs rfl) fields value

theorem not_mem_without (fields : List (Key × Value)) (key : Key) :
    key ∉ (without fields key).map Prod.fst := by
  intro member
  obtain ⟨field, among, own⟩ := List.mem_map.mp member
  exact of_decide_eq_true (List.mem_filter.mp among).2 own

theorem without_of_not_mem {fields : List (Key × Value)} {key : Key}
    (missing : key ∉ fields.map Prod.fst) : without fields key = fields := by
  refine List.filter_eq_self.mpr fun field member => ?_
  refine decide_eq_true fun same => missing ?_
  exact same ▸ List.mem_map_of_mem member

theorem mem_of_lookup {fields : List (Key × Value)} {key : Key}
    {value : Value} (found : fields.lookup key = some value) :
    (key, value) ∈ fields := by
  obtain ⟨before, after, rfl, -⟩ := List.lookup_eq_some_iff.mp found
  simp

theorem mem_set {fields : List (Key × Value)} {key : Key} {value : Value}
    {field : Key × Value} (member : field ∈ set fields key value) :
    field = (key, value) ∨ field ∈ fields := by
  unfold set at member
  split at member
  · obtain ⟨old, among, rfl⟩ := List.mem_map.mp member
    split
    · exact .inl rfl
    · exact .inr among
  · rcases List.mem_append.mp member with among | last
    · exact .inr among
    · exact .inl (List.mem_singleton.mp last)

theorem mem_moveToEnd {fields moved : List (Key × Value)} {key : Key}
    {field : Key × Value} (done : moveToEnd fields key = some moved)
    (member : field ∈ moved) : field ∈ fields := by
  obtain ⟨value, found, rfl⟩ := Option.map_eq_some_iff.mp done
  rcases List.mem_append.mp member with among | last
  · exact (List.mem_filter.mp among).1
  · rw [List.mem_singleton.mp last]
    exact mem_of_lookup found

end Dicts
