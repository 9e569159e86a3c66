import IndustryFlow.Tracking.Ownership

/-!
# What the tracking server acts on

The tracking server reads a GET's fields under their names.  It reads any
other message as protobuf JSON: a field may be spelled in lowerCamelCase too,
and the later of two spellings counts.  The gateway checks and scopes a field
under its name only, so the two agree where the name is the later spelling.
-/

namespace IndustryFlow.Tracking

open Tenancy

/-! ## The server's reading -/

def jsonChars : Bool → Text → Text
  | _, [] => []
  | _, '_' :: name => jsonChars true name
  | upper, char :: name =>
      (if upper then char.toUpper else char) :: jsonChars false name

/-- The lowerCamelCase spelling of a field. -/
def jsonName (name : String) : String :=
  String.ofList (jsonChars false name.toList)

/-- The key, of those of a message, that a field is read from. -/
def spelling (method : HttpMethod) (keys : List String) (name : String) :
    Option String :=
  match method with
  | .get => if name ∈ keys then some name else none
  | _ => (keys.filter fun key => key = name ∨ key = jsonName name).getLast?

def reading (method : HttpMethod) (message : Message) (name : String) :
    Json :=
  match spelling method (message.map Prod.fst) name with
  | some key => Json.get message key
  | none => .null

/-- The texts of a list; an empty one names nothing. -/
def textsOf (items : List Json) : List String :=
  items.filterMap fun item =>
    match item with
    | .str text => if text = "" then none else some text
    | _ => none

/-- The texts that are taken from a field's value.  A repeated field of a GET
may come once, and a single one takes the first of several. -/
def taken (method : HttpMethod) (repeated : Bool) (value : Json) :
    List String :=
  textsOf (match method, repeated with
    | .get, true => asList value
    | .get, false => (asList value).take 1
    | _, true => match value with
        | .arr items => items
        | _ => []
    | _, false => [value])

structure IdField where
  name : String
  kind : Kind
  repeated : Bool
deriving DecidableEq

/-- The known id fields, as the server declares them. -/
def knownIds : List IdField :=
  idFields.map fun field =>
    ⟨field.1, field.2, field.1 ∈ ["experiment_ids", "run_ids"]⟩

/-- The fields that name an experiment or a registered model. -/
def knownNames : List String :=
  nameFields.flatMap Prod.snd

/-- Neither spelling is one that the gateway writes to. -/
def Unwritten (name : String) : Prop :=
  ∀ key ∈ [name, jsonName name],
    key ∉ knownNames ∧ key ≠ "artifact_location"

/-- The fields that the server takes from the messages of its endpoints: ids,
lists of objects with ids, and names. -/
structure Upstream where
  ids : HttpMethod → Text → List IdField
  lists : HttpMethod → Text → List (String × List IdField)
  names : HttpMethod → Text → List String
  ids_unwritten : ∀ method endpoint, ∀ field ∈ ids method endpoint,
    Unwritten field.name
  lists_unwritten : ∀ method endpoint, ∀ list ∈ lists method endpoint,
    Unwritten list.1
  names_known : ∀ method endpoint, names method endpoint ⊆ knownNames

/-- The ids that are taken from an object are the tenant's. -/
def TakesOwn (lookups : Lookups) (method : HttpMethod)
    (fields : List IdField) (object : Message) : Prop :=
  ∀ field ∈ fields,
    ∀ id ∈ taken method field.repeated (reading method object field.name),
      Belongs lookups field.kind (.str id)

/-- Everything that the server takes from a call is the tenant's, and a new
experiment is placed where the gateway chose. -/
structure ActsInside (upstream : Upstream) (lookups : Lookups)
    (nonce : Text) (call : Forwarded) : Prop where
  ids : TakesOwn lookups call.method
    (upstream.ids call.method call.endpoint) call.message
  listed : ∀ list ∈ upstream.lists call.method call.endpoint,
    ∀ object ∈ objectsOf (reading call.method call.message list.1),
      TakesOwn lookups call.method list.2 object
  names : ∀ name ∈ upstream.names call.method call.endpoint,
    ∀ text ∈ taken call.method false
        (reading call.method call.message name),
      namePrefix lookups.company <+: text.toList
  location : call.endpoint = "experiments/create".toList →
    taken call.method false
        (reading call.method call.message "artifact_location") =
      [experimentArtifactLocation lookups.company nonce]

/-! ## The condition -/

/-- A field is read under its other spelling. -/
def Aliased (method : HttpMethod) (message : Message) (name : String) :
    Prop :=
  ∃ key, spelling method (message.map Prod.fst) name = some key ∧
    key ≠ name

/-- A rule looks up what is read under the field. -/
structure LookedUp (rules : List Rule) (pathArgs : List Text)
    (method : HttpMethod) (message : Message) (field : IdField) : Prop where
  known : field ∈ knownIds
  rule : readBy rules pathArgs (.top field.name) = true
  plain : ¬Aliased method message field.name
  single : field.kind = .experiment ∨ field.repeated = true ∨
    ∀ items, Json.get message field.name ≠ .arr items

/-- Where the server reads what the gateway neither looks up nor qualifies,
the message itself names the tenant's own. -/
structure OwnBesides (upstream : Upstream) (lookups : Lookups)
    (rules : List Rule) (pathArgs : List Text) (method : HttpMethod)
    (endpoint : Text) (message : Message) : Prop where
  ids : ∀ field ∈ upstream.ids method endpoint,
    ¬LookedUp rules pathArgs method message field →
      TakesOwn lookups method [field] message
  listed : ∀ list ∈ upstream.lists method endpoint,
    ∀ object ∈ objectsOf (reading method message list.1),
      TakesOwn lookups method list.2 object
  names : ∀ name ∈ upstream.names method endpoint,
    name ∉ requestNameFields endpoint ∨ Aliased method message name →
      ∀ text ∈ taken method false (reading method message name),
        namePrefix lookups.company <+: text.toList
  location : endpoint = "experiments/create".toList →
    "artifact_location" ∈ message.map Prod.fst →
      ¬Aliased method message "artifact_location"

/-! ## What the gateway writes -/

theorem keys_scopeField (company : Company) (message : Message)
    (name : String) :
    (scopeField company message name).map Prod.fst =
      message.map Prod.fst := by
  unfold scopeField
  split
  · rename_i text found
    rw [Json.keys_setItem, if_pos]
    have some := List.lookup_eq_some_iff.mp found
    obtain ⟨front, back, rfl, -⟩ := some
    simp
  · rfl

theorem keys_scopeRequest (company : Company) (endpoint : Text)
    (message : Message) :
    (scopeRequest company endpoint message).map Prod.fst =
      message.map Prod.fst := by
  have folded (names : List String) (fields : Message) :
      (names.foldl (scopeField company) fields).map Prod.fst =
        fields.map Prod.fst := by
    induction names generalizing fields with
    | nil => rfl
    | cons name names induction =>
        rw [List.foldl_cons, induction, keys_scopeField]
  exact folded _ message

theorem get_scopeField_other {company : Company} {message : Message}
    {name key : String} (other : key ≠ name) :
    Json.get (scopeField company message name) key =
      Json.get message key := by
  unfold scopeField
  split
  · rw [Json.get_setItem, if_neg other]
  · rfl

theorem get_scopeField {company : Company} {message : Message}
    {name text : String} (found : Json.get message name = .str text) :
    Json.get (scopeField company message name) name =
      .str (qualified company text) := by
  have looked : message.lookup name = some (.str text) := by
    unfold Json.get at found
    cases value : message.lookup name with
    | none =>
        rw [value] at found
        cases found
    | some json =>
        rw [value] at found
        exact congrArg some found
  rw [scopeField, looked]
  exact (Json.get_setItem ..).trans (if_pos rfl)

theorem qualified_prefix (company : Company) (text : String) :
    namePrefix company <+: (qualified company text).toList := by
  rw [qualified, String.toList_ofList, qualifyName]
  split
  · rename_i owned
    exact List.isPrefixOf_iff_prefix.mp owned
  · exact List.prefix_append _ _

/-- A name in the tenant's namespace. -/
def Qualified (company : Company) (value : Json) : Prop :=
  ∃ text, value = .str text ∧ namePrefix company <+: text.toList

/-- A field that the endpoint qualifies is a name of the tenant afterwards. -/
theorem get_scopeRequest {company : Company} {endpoint : Text}
    {message : Message} {name : String}
    (member : name ∈ requestNameFields endpoint)
    (text : isText (Json.get message name) = true) :
    Qualified company
      (Json.get (scopeRequest company endpoint message) name) := by
  have step (fields : Message) (own : isText (Json.get fields name) = true) :
      Qualified company
        (Json.get (scopeField company fields name) name) := by
    cases value : Json.get fields name with
    | str found =>
        exact ⟨_, get_scopeField value, qualified_prefix company found⟩
    | null => rw [value] at own; cases own
    | bool held => rw [value] at own; cases own
    | num shown zero => rw [value] at own; cases own
    | arr items => rw [value] at own; cases own
    | obj members => rw [value] at own; cases own
  have kept (names : List String) (fields : Message)
      (done : Qualified company (Json.get fields name)) :
      Qualified company
        (Json.get (names.foldl (scopeField company) fields) name) := by
    induction names generalizing fields with
    | nil => exact done
    | cons first names induction =>
        refine induction _ ?_
        by_cases own : name = first
        · subst own
          obtain ⟨found, same, -⟩ := done
          exact step fields (by rw [same]; rfl)
        · rw [get_scopeField_other own]
          exact done
  have reached (names : List String) (fields : Message)
      (inside : name ∈ names)
      (own : isText (Json.get fields name) = true) :
      Qualified company
        (Json.get (names.foldl (scopeField company) fields) name) := by
    induction names generalizing fields with
    | nil => cases inside
    | cons first names induction =>
        by_cases same : name = first
        · subst same
          exact kept names _ (step fields own)
        · refine induction _ ((List.mem_cons.mp inside).resolve_left same) ?_
          rw [get_scopeField_other same]
          exact own
  exact reached _ message member text

theorem get_scopeRequest_other {company : Company} {endpoint : Text}
    {message : Message} {key : String}
    (other : key ∉ requestNameFields endpoint) :
    Json.get (scopeRequest company endpoint message) key =
      Json.get message key := by
  have folded (names : List String) (fields : Message)
      (outside : key ∉ names) :
      Json.get (names.foldl (scopeField company) fields) key =
        Json.get fields key := by
    induction names generalizing fields with
    | nil => rfl
    | cons name names induction =>
        rw [List.foldl_cons, induction _ fun later =>
          outside (List.mem_cons_of_mem _ later)]
        exact get_scopeField_other fun same =>
          outside (same ▸ List.mem_cons_self)
  exact folded _ message other

theorem requestNameFields_known (endpoint : Text) :
    requestNameFields endpoint ⊆ knownNames := by
  intro name member
  unfold requestNameFields at member
  split at member
  · rename_i entry found
    exact List.mem_flatMap.mpr
      ⟨entry, List.mem_of_find?_eq_some found, member⟩
  · cases member

/-- The call, with what the gateway writes. -/
theorem get_forwardMessage {company : Company} {method : HttpMethod}
    {endpoint nonce : Text} {message : Message} {key : String}
    (other : key ≠ "artifact_location") :
    Json.get (forwardMessage company method endpoint nonce message).message
        key =
      Json.get (scopeRequest company endpoint message) key := by
  unfold forwardMessage
  dsimp only
  split
  · rw [Json.get_setItem, if_neg other]
  · rfl

theorem keys_forwardMessage (company : Company) (method : HttpMethod)
    (endpoint nonce : Text) (message : Message) :
    (forwardMessage company method endpoint nonce message).message.map
        Prod.fst =
      if endpoint = "experiments/create".toList ∧
          "artifact_location" ∉ message.map Prod.fst
      then message.map Prod.fst ++ ["artifact_location"]
      else message.map Prod.fst := by
  unfold forwardMessage
  dsimp only
  split
  · rename_i create
    rw [Json.keys_setItem, keys_scopeRequest]
    by_cases present : "artifact_location" ∈ message.map Prod.fst
    · rw [if_pos present, if_neg fun both => both.2 present]
    · rw [if_neg present, if_pos ⟨create, present⟩]
  · rename_i other
    rw [keys_scopeRequest, if_neg fun both => other both.1]

/-! ## What is read of the call -/

theorem spelling_some {method : HttpMethod} {keys : List String}
    {name key : String} (spelled : spelling method keys name = some key) :
    key ∈ keys ∧ (key = name ∨ key = jsonName name) := by
  have last (found : (keys.filter fun key =>
      key = name ∨ key = jsonName name).getLast? = some key) :
      key ∈ keys ∧ (key = name ∨ key = jsonName name) := by
    have member := List.mem_filter.mp (List.mem_of_getLast? found)
    exact ⟨member.1, of_decide_eq_true member.2⟩
  cases method with
  | get =>
      unfold spelling at spelled
      dsimp only at spelled
      split at spelled
      · rename_i inside
        cases spelled
        exact ⟨inside, .inl rfl⟩
      · cases spelled
  | post => exact last spelled
  | put => exact last spelled
  | patch => exact last spelled
  | delete => exact last spelled

theorem spelling_append {method : HttpMethod} {keys : List String}
    {name key : String} (name_apart : key ≠ name)
    (json_apart : key ≠ jsonName name) :
    spelling method (keys ++ [key]) name = spelling method keys name := by
  have last : ((keys ++ [key]).filter fun key =>
      key = name ∨ key = jsonName name) =
      keys.filter fun key => key = name ∨ key = jsonName name := by
    simp [List.filter_append, name_apart, json_apart]
  cases method with
  | get => simp [spelling, Ne.symm name_apart]
  | post => exact congrArg List.getLast? last
  | put => exact congrArg List.getLast? last
  | patch => exact congrArg List.getLast? last
  | delete => exact congrArg List.getLast? last

theorem spelling_forward {company : Company} {method : HttpMethod}
    {endpoint nonce : Text} {message : Message} {name : String}
    (name_apart : "artifact_location" ≠ name)
    (json_apart : "artifact_location" ≠ jsonName name) :
    spelling method
        ((forwardMessage company method endpoint nonce message).message.map
          Prod.fst) name =
      spelling method (message.map Prod.fst) name := by
  rw [keys_forwardMessage]
  split
  · exact spelling_append name_apart json_apart
  · rfl

/-- A key that the gateway does not write to is read as it came. -/
theorem reading_forward {company : Company} {method : HttpMethod}
    {endpoint nonce : Text} {message : Message} {name : String}
    (name_apart : "artifact_location" ≠ name)
    (json_apart : "artifact_location" ≠ jsonName name)
    (outside : ∀ key, spelling method (message.map Prod.fst) name =
      some key → key ∉ requestNameFields endpoint) :
    reading method
        (forwardMessage company method endpoint nonce message).message name =
      reading method message name := by
  unfold reading
  rw [spelling_forward name_apart json_apart]
  cases found : spelling method (message.map Prod.fst) name with
  | none => rfl
  | some key =>
      have apart : key ≠ "artifact_location" := by
        rcases (spelling_some found).2 with rfl | rfl
        · exact name_apart.symm
        · exact json_apart.symm
      dsimp only
      rw [get_forwardMessage apart,
        get_scopeRequest_other (outside key found)]

theorem Unwritten.reading {company : Company} {method : HttpMethod}
    {endpoint nonce : Text} {message : Message} {name : String}
    (unwritten : Unwritten name) :
    reading method
        (forwardMessage company method endpoint nonce message).message name =
      reading method message name := by
  have own := unwritten name List.mem_cons_self
  have json := unwritten (jsonName name) (by simp)
  refine reading_forward own.2.symm json.2.symm ?_
  intro key spelled member
  have known := requestNameFields_known endpoint member
  rcases (spelling_some spelled).2 with rfl | rfl
  · exact own.1 known
  · exact json.1 known

theorem forward_takesOwn {lookups : Lookups} {method : HttpMethod}
    {endpoint nonce : Text} {message : Message} {fields : List IdField}
    (unwritten : ∀ field ∈ fields, Unwritten field.name) :
    TakesOwn lookups method fields
        (forwardMessage lookups.company method endpoint nonce
          message).message ↔
      TakesOwn lookups method fields message := by
  refine forall_congr' fun field => forall_congr' fun member => ?_
  rw [(unwritten field member).reading]

/-! ## Ids -/

theorem mem_textsOf {items : List Json} {text : String} :
    text ∈ textsOf items ↔ .str text ∈ items ∧ text ≠ "" := by
  unfold textsOf
  rw [List.mem_filterMap]
  constructor
  · rintro ⟨item, member, found⟩
    split at found
    · rename_i held
      split at found
      · cases found
      · rename_i nonempty
        cases found
        exact ⟨member, nonempty⟩
    · cases found
  · rintro ⟨member, nonempty⟩
    exact ⟨.str text, member, by simp [nonempty]⟩

theorem taken_asList {method : HttpMethod} {repeated : Bool} {value : Json}
    {text : String} (found : text ∈ taken method repeated value) :
    .str text ∈ asList value ∧ text ≠ "" := by
  obtain ⟨member, nonempty⟩ := mem_textsOf.mp found
  refine ⟨?_, nonempty⟩
  split at member
  · exact member
  · exact List.mem_of_mem_take member
  · split at member
    · exact member
    · cases member
  · rw [← List.mem_singleton.mp member]
    exact List.mem_singleton_self _

/-- An id that is read where a rule looks it up was looked up. -/
theorem LookedUp.belongs {lookups : Lookups} {route : Route}
    {endpoint : Text} {pathArgs : List Text} {method : HttpMethod}
    {message : Message} {field : IdField}
    (checked : Checked lookups route.rules pathArgs message)
    (args : pathArgs = [] ∨ pathArgs = route.arguments endpoint)
    (lookedUp : LookedUp route.rules pathArgs method message field) :
    TakesOwn lookups method [field] message := by
  intro _ member id found
  cases List.mem_singleton.mp member
  have value : reading method message field.name = .null ∨
      reading method message field.name =
        Json.get message field.name := by
    unfold reading
    cases spelled : spelling method (message.map Prod.fst) field.name with
    | none => exact .inl rfl
    | some key =>
        have own : key = field.name := by
          by_contra other
          exact lookedUp.plain ⟨key, spelled, other⟩
        exact .inr (by rw [own])
  rcases value with null | own
  · rw [null] at found
    cases (taken_asList found).1
  · rw [own] at found
    obtain ⟨listed, nonempty⟩ := taken_asList found
    have single (notList : ∀ items,
        Json.get message field.name ≠ .arr items) :
        .str id ∈ [Json.get message field.name].filter Json.truthy := by
      have same : Json.get message field.name = .str id := by
        unfold asList at listed
        split at listed
        · cases listed
        · rename_i items held
          exact absurd held (notList items)
        · exact (List.mem_singleton.mp listed).symm
      simp [same, Json.truthy, nonempty]
    have inside : .str id ∈ idsUnder message field.name ∧
        (field.name, field.kind) ∈ idFields := by
      obtain ⟨named, known, rfl⟩ := List.mem_map.mp lookedUp.known
      refine ⟨?_, known⟩
      have shape := lookedUp.single
      simp only [idFields, List.mem_cons, List.not_mem_nil, or_false]
        at known
      rcases known with rfl | rfl | rfl | rfl | rfl | rfl | rfl
      · exact listed
      · exact listed
      · exact single (by simpa using shape)
      · exact single (by simpa using shape)
      · exact single (by simpa using shape)
      · exact listed
      · exact single (by simpa using shape)
    refine checked.carried args
      ⟨.top field.name, field.kind, .str id⟩ ?_ lookedUp.rule
    refine List.mem_append_left _ (List.mem_append_left _ ?_)
    exact List.mem_flatMap.mpr ⟨(field.name, field.kind), inside.2,
      List.mem_map_of_mem inside.1⟩

/-! ## Names -/

theorem knownNames_apart : ∀ name ∈ knownNames,
    "artifact_location" ≠ name ∧ "artifact_location" ≠ jsonName name ∧
      (jsonName name = name ∨ jsonName name ∉ knownNames) := by
  decide +kernel

/-- A name that is not qualified is read as it came. -/
theorem reading_name {company : Company} {method : HttpMethod}
    {endpoint nonce : Text} {message : Message} {name : String}
    (known : name ∈ knownNames)
    (besides : name ∉ requestNameFields endpoint ∨
      Aliased method message name) :
    reading method
        (forwardMessage company method endpoint nonce message).message name =
      reading method message name := by
  obtain ⟨name_apart, json_apart, json⟩ := knownNames_apart name known
  refine reading_forward name_apart json_apart ?_
  intro key spelled member
  have other : key ≠ name := by
    rcases besides with outside | ⟨found, same, other⟩
    · exact fun own => outside (own ▸ member)
    · rw [spelled] at same
      cases same
      exact other
  have json_key := (spelling_some spelled).2.resolve_left other
  rcases json with same | outside
  · exact other (json_key.trans same)
  · exact outside (json_key ▸ requestNameFields_known endpoint member)

/-- A name that is qualified is the tenant's. -/
theorem reading_qualified {company : Company} {method : HttpMethod}
    {endpoint nonce : Text} {message : Message} {name : String}
    (member : name ∈ requestNameFields endpoint)
    (plain : ¬Aliased method message name)
    (text : name ∈ message.map Prod.fst →
      isText (Json.get message name) = true) :
    ∀ found ∈ taken method false (reading method
        (forwardMessage company method endpoint nonce message).message
        name), namePrefix company <+: found.toList := by
  obtain ⟨name_apart, json_apart, -⟩ :=
    knownNames_apart name (requestNameFields_known endpoint member)
  intro found inside
  unfold reading at inside
  rw [spelling_forward name_apart json_apart] at inside
  cases read : spelling method (message.map Prod.fst) name with
  | none =>
      rw [read] at inside
      cases (taken_asList inside).1
  | some key =>
      have own : key = name := by
        by_contra other
        exact plain ⟨key, read, other⟩
      subst own
      rw [read] at inside
      dsimp only at inside
      rw [get_forwardMessage name_apart.symm] at inside
      have scopes : Qualified company
          (Json.get (scopeRequest company endpoint message) key) :=
        get_scopeRequest member (text (spelling_some read).1)
      obtain ⟨name, same, owned⟩ := scopes
      rw [same] at inside
      cases List.mem_singleton.mp (taken_asList inside).1
      exact owned

/-! ## The location of a new experiment -/

theorem matchRoute_create {method : HttpMethod} {found : Route × List Text}
    (matched : matchRoute method "experiments/create".toList = some found) :
    method ≠ .get := by
  rintro rfl
  have closed : matchRoute .get "experiments/create".toList = none := by
    decide +kernel
  rw [closed] at matched
  cases matched

theorem experimentArtifactLocation_injective {company : Company}
    {left right : Text}
    (same : experimentArtifactLocation company left =
      experimentArtifactLocation company right) : left = right :=
  List.append_cancel_left (String.ofList_injective same)

theorem spelling_written {method : HttpMethod} (written : method ≠ .get)
    (keys : List String) (name : String) :
    spelling method keys name = (keys.filter fun key =>
      key = name ∨ key = jsonName name).getLast? := by
  cases method with
  | get => exact absurd rfl written
  | post => rfl
  | put => rfl
  | patch => rfl
  | delete => rfl

/-- The gateway's location counts unless the other spelling comes later. -/
theorem location_chosen {company : Company} {method : HttpMethod}
    {nonce : Text} {message : Message} (written : method ≠ .get)
    (plain : "artifact_location" ∈ message.map Prod.fst →
      ¬Aliased method message "artifact_location") :
    taken method false (reading method (forwardMessage company method
        "experiments/create".toList nonce message).message
        "artifact_location") =
      [experimentArtifactLocation company nonce] := by
  have spelled : spelling method ((forwardMessage company method
      "experiments/create".toList nonce message).message.map Prod.fst)
      "artifact_location" = some "artifact_location" := by
    rw [keys_forwardMessage]
    by_cases present : "artifact_location" ∈ message.map Prod.fst
    · rw [if_neg fun both => both.2 present]
      cases found : spelling method (message.map Prod.fst)
          "artifact_location" with
      | none =>
          rw [spelling_written written, List.getLast?_eq_none_iff,
            List.filter_eq_nil_iff] at found
          exact absurd (decide_eq_true (.inl rfl)) (found _ present)
      | some key =>
          by_contra other
          exact plain present
            ⟨key, found, fun own => other (congrArg some own)⟩
    · rw [if_pos ⟨rfl, present⟩, spelling_written written,
        List.filter_append]
      simp
  have value : Json.get (forwardMessage company method
      "experiments/create".toList nonce message).message
      "artifact_location" =
      .str (experimentArtifactLocation company nonce) := by
    unfold forwardMessage
    dsimp only
    rw [if_pos rfl, Json.get_setItem, if_pos rfl]
  have nonempty : experimentArtifactLocation company nonce ≠ "" := by
    intro empty
    exact absurd (String.ofList_injective empty) (by simp [artifactScheme])
  unfold reading
  rw [spelled]
  dsimp only
  rw [value]
  cases method with
  | get => exact absurd rfl written
  | post => simp [taken, textsOf, nonempty]
  | put => simp [taken, textsOf, nonempty]
  | patch => simp [taken, textsOf, nonempty]
  | delete => simp [taken, textsOf, nonempty]

/-- Where it comes later, it counts as it came. -/
theorem location_aliased {company : Company} {method : HttpMethod}
    {nonce : Text} {message : Message}
    (present : "artifact_location" ∈ message.map Prod.fst)
    (aliased : Aliased method message "artifact_location") :
    reading method (forwardMessage company method
        "experiments/create".toList nonce message).message
        "artifact_location" =
      reading method message "artifact_location" := by
  obtain ⟨key, found, other⟩ := aliased
  have json : key = "artifactLocation" :=
    ((spelling_some found).2.resolve_left other).trans (by decide +kernel)
  have outside :
      "artifactLocation" ∉ requestNameFields "experiments/create".toList := by
    decide +kernel
  unfold reading
  rw [keys_forwardMessage, if_neg fun both => both.2 present, found]
  dsimp only
  rw [get_forwardMessage other, json, get_scopeRequest_other outside]

/-! ## The binding -/

/-- The name of a new location does not decide what is accepted. -/
theorem proxy_nonce {lookups : Lookups} {method : HttpMethod}
    {endpoint : Text} {query : List (String × String)} {body : Body}
    {nonce : Text} {forwarded : Forwarded}
    (sent : proxy lookups method endpoint query body nonce = .ok forwarded)
    (other : Text) :
    ∃ call, proxy lookups method endpoint query body other = .ok call := by
  unfold proxy at sent ⊢
  split at sent
  · cases sent
  · obtain ⟨message, asked, rest⟩ := bind_ok_iff.mp sent
    simp only [check_ok_iff] at rest
    obtain ⟨texts, rest⟩ := rest
    obtain ⟨⟨⟩, passed, -⟩ := bind_ok_iff.mp rest
    refine ⟨forwardMessage lookups.company method endpoint other message,
      bind_ok_iff.mpr ⟨message, asked, ?_⟩⟩
    simp only [check_ok_iff]
    exact ⟨texts, bind_ok_iff.mpr ⟨(), passed, rfl⟩⟩

/-- What the gateway vouches for is what the tracking server acts on, exactly
when everything that the server reads elsewhere is the tenant's too. -/
theorem acts_inside_iff (upstream : Upstream) (lookups : Lookups)
    (method : HttpMethod) (endpoint : Text)
    (query : List (String × String)) (body : Body) (route : Route)
    (pathArgs : List Text) (message : Message)
    (matched : matchRoute method endpoint = some (route, pathArgs))
    (read : requestMessage method query body = .ok message)
    (accepted : ∃ nonce forwarded,
      proxy lookups method endpoint query body nonce = .ok forwarded) :
    (∀ nonce forwarded,
      proxy lookups method endpoint query body nonce = .ok forwarded →
        ActsInside upstream lookups nonce forwarded) ↔
    OwnBesides upstream lookups route.rules pathArgs method endpoint
      message := by
  have sends {nonce : Text} {forwarded : Forwarded}
      (sent : proxy lookups method endpoint query body nonce =
        .ok forwarded) :
      (∀ name ∈ requestNameFields endpoint, name ∈ message.map Prod.fst →
        isText (Json.get message name) = true) ∧
      Checked lookups route.rules pathArgs message ∧
      forwarded =
        forwardMessage lookups.company method endpoint nonce message := by
    obtain ⟨_, _, _, sameRoute, sameMessage, rest⟩ := proxy_ok sent
    rw [matched] at sameRoute
    rw [read] at sameMessage
    cases sameRoute
    cases sameMessage
    exact rest
  have idsApart : ∀ field ∈ upstream.ids method endpoint,
      Unwritten field.name := upstream.ids_unwritten method endpoint
  obtain ⟨nonce, forwarded, sent⟩ := accepted
  constructor
  · intro inside
    have acts (other : Text) : ActsInside upstream lookups other
        (forwardMessage lookups.company method endpoint other message) := by
      obtain ⟨call, again⟩ := proxy_nonce sent other
      have same := (sends again).2.2
      exact same ▸ inside other call again
    have act := acts nonce
    refine ⟨?_, ?_, ?_, ?_⟩
    · intro field member _ other own
      cases List.mem_singleton.mp own
      exact (forward_takesOwn idsApart).mp act.ids field member
    · intro list member object found
      refine act.listed list member object ?_
      have apart := upstream.lists_unwritten method endpoint list member
      exact apart.reading.symm ▸ found
    · intro name member besides text found
      refine act.names name member text ?_
      have known := upstream.names_known method endpoint member
      exact (reading_name known besides).symm ▸ found
    · rintro rfl present aliased
      have same (other : Text) :
          taken method false
              (reading method message "artifact_location") =
            [experimentArtifactLocation lookups.company other] := by
        rw [← location_aliased present aliased]
        exact (acts other).location rfl
      have equal := experimentArtifactLocation_injective
        (List.singleton_inj.mp ((same []).symm.trans (same ['0'])))
      cases equal
  · intro besides other call answered
    obtain ⟨texts, checked, rfl⟩ := sends answered
    refine ⟨?_, ?_, ?_, ?_⟩
    · refine (forward_takesOwn idsApart).mpr fun field member => ?_
      by_cases lookedUp : LookedUp route.rules pathArgs method message field
      · exact lookedUp.belongs checked (matchRoute_arguments matched)
          field (List.mem_singleton_self _)
      · exact besides.ids field member lookedUp field
          (List.mem_singleton_self _)
    · intro list member object found
      have apart := upstream.lists_unwritten method endpoint list member
      exact besides.listed list member object (apart.reading ▸ found)
    · intro name member
      by_cases elsewhere : name ∉ requestNameFields endpoint ∨
          Aliased method message name
      · have known := upstream.names_known method endpoint member
        intro text found
        exact besides.names name member elsewhere text
          (reading_name known elsewhere ▸ found)
      · obtain ⟨inside, plain⟩ := not_or.mp elsewhere
        have qualifies := not_not.mp inside
        exact reading_qualified qualifies plain (texts name qualifies)
    · intro create
      change endpoint = "experiments/create".toList at create
      subst create
      exact location_chosen (matchRoute_create matched)
        (besides.location rfl)

instance : DecidablePred Unwritten := fun name =>
  inferInstanceAs (Decidable (∀ key ∈ [name, jsonName name],
    key ∉ knownNames ∧ key ≠ "artifact_location"))

/-- A server that takes every known field of every message, and the models of
metrics. -/
def everyField : Upstream where
  ids _ _ := knownIds
  lists _ _ := [("metrics", [⟨"model_id", .loggedModel, false⟩])]
  names _ _ := knownNames
  ids_unwritten _ _ := by decide +kernel
  lists_unwritten _ _ := by decide +kernel
  names_known _ _ := List.Subset.refl _

/-- An experiment is created under the tenant's name and prefix. -/
theorem acts_inside_create :
    let lookups := twoTenants (Company.uniform 'a' (by decide))
      (Company.uniform 'b' (by decide))
    let body := Body.value (.obj
      [("artifactLocation", .str "elsewhere"), ("name", .str "e")])
    ∀ nonce forwarded,
      proxy lookups .post "experiments/create".toList [] body nonce =
        .ok forwarded →
      ActsInside everyField lookups nonce forwarded := by
  intro lookups body
  let message := [("artifactLocation", Json.str "elsewhere"),
    ("name", .str "e")]
  have passes : (proxy lookups .post "experiments/create".toList [] body
      []).isOk = true := by
    decide +kernel
  refine (acts_inside_iff everyField lookups .post
    "experiments/create".toList [] body
    ⟨"experiments/create", [.createExperiment]⟩ [] message
    (by decide +kernel) rfl ⟨[], exists_ok passes⟩).mpr ⟨?_, ?_, ?_, ?_⟩
  · intro field member _ _ same id found
    cases List.mem_singleton.mp same
    have nothing : ∀ field ∈ knownIds, taken .post field.repeated
        (reading .post message field.name) = [] := by
      decide +kernel
    rw [nothing field member] at found
    cases found
  · intro list member object found
    cases List.mem_singleton.mp member
    cases found
  · intro name member besides text found
    have nothing : ∀ name ∈ knownNames, name = "name" ∨
        taken .post false (reading .post message name) = [] := by
      decide +kernel
    rcases nothing name member with rfl | empty
    · rcases besides with outside | ⟨key, spelled, other⟩
      · exact absurd (by decide +kernel) outside
      · have json := (spelling_some spelled).2.resolve_left other
        exact absurd (json.trans (by decide +kernel)) other
    · rw [empty] at found
      cases found
  · intro _ present
    exact absurd present (by decide +kernel)

/-- The server updates the run that the later spelling names. -/
theorem acts_on_alias :
    ¬∀ (upstream : Upstream) (lookups : Lookups) (method : HttpMethod)
      (endpoint : Text) (query : List (String × String)) (body : Body)
      (nonce : Text) (forwarded : Forwarded),
      proxy lookups method endpoint query body nonce = .ok forwarded →
      ActsInside upstream lookups nonce forwarded := by
  intro all
  let lookups := twoTenants (Company.uniform 'a' (by decide))
    (Company.uniform 'b' (by decide))
  let body := Body.value (.obj
    [("run_id", .str "own"), ("runId", .str "foreign")])
  obtain ⟨forwarded, sent⟩ := exists_ok (f := proxy lookups .post
    "runs/update".toList [] body []) (by decide +kernel)
  have acts := all everyField lookups .post "runs/update".toList [] body []
    forwarded sent
  obtain ⟨_, _, message, _, read, _, _, rfl⟩ := proxy_ok sent
  cases read
  have belongs := acts.ids ⟨"run_id", .run, false⟩ (by decide +kernel)
    "foreign" (by decide +kernel)
  have passed := run_ok_iff.mpr belongs
  have refused : (lookups.run (.str "foreign")).isOk = false := by
    decide +kernel
  rw [passed] at refused
  cases refused

end IndustryFlow.Tracking
