import IndustryFlow.Tracking.Proxy

/-!
# The ids that a request carries

An id belongs to the tenant when the tracking server's answer about it leads to
an experiment in the tenant's namespace.  The rules of a route decide which of
the places where a request can carry an id are looked up before the request is
forwarded; an id in any other place is forwarded as it is.
-/

namespace IndustryFlow.Tracking

open Tenancy

/-! ## Belonging to the tenant -/

/-- The server knows the experiment under a name of the tenant. -/
def InNamespace (lookups : Lookups) (id : String) : Prop :=
  ∃ data found name, lookups.experimentsGet id = (200, .obj data) ∧
    Json.get data "experiment" = .obj found ∧
    Json.get found "name" = .str name ∧
    namePrefix lookups.company <+: name.toList

/-- The server's answer about an entity names an experiment of the tenant. -/
def OfTenant (lookups : Lookups) (answer : Nat × Json) (key : String) :
    Prop :=
  ∃ data found info, answer = (200, .obj data) ∧
    Json.get data key = .obj found ∧ Json.get found "info" = .obj info ∧
    (Json.get info "experiment_id").truthy = true ∧
    InNamespace lookups ((Json.get info "experiment_id").pyStr lookups.repr)

inductive Kind where
  | experiment
  | run
  | loggedModel
deriving DecidableEq

def Belongs (lookups : Lookups) : Kind → Json → Prop
  | .experiment, id => id.truthy = true ∧
      InNamespace lookups (id.pyStr lookups.repr)
  | .run, id =>
      OfTenant lookups (lookups.runsGet (id.pyStr lookups.repr)) "run"
  | .loggedModel, id => id.truthy = true ∧
      OfTenant lookups (lookups.loggedModelsGet (id.pyStr lookups.repr))
        "model"

theorem field_obj (fields : List (String × Json)) (key : String) :
    field (.obj fields) key = .ok (Json.get fields key) := by
  cases fields with
  | nil => rfl
  | cons member fields => rfl

theorem field_ok {value found : Json} {key : String}
    (asked : field value key = .ok found) :
    found = .null ∨ ∃ fields, value = .obj fields ∧
      Json.get fields key = found := by
  by_cases some : value.truthy = true
  · rw [field, Json.orElse, if_pos some] at asked
    split at asked
    · rename_i fields
      exact .inr ⟨fields, rfl, Except.ok.inj asked⟩
    · cases asked
  · rw [field, Json.orElse, if_neg some] at asked
    exact .inl (Except.ok.inj asked).symm

theorem ownsName_iff {company : Company} {name : Json} :
    ownsName company name = true ↔
      ∃ text, name = .str text ∧ namePrefix company <+: text.toList := by
  cases name with
  | str text =>
      have nonempty : namePrefix company ≠ [] := by
        simp [namePrefix]
      simp only [ownsName, ownedName, Bool.and_eq_true, decide_eq_true_eq,
        Json.str.injEq, exists_eq_left']
      constructor
      · rintro ⟨-, owned⟩
        split at owned
        · cases owned
        · rename_i kept
          simp only [Bool.or_eq_true, Bool.not_eq_true', not_or,
            Bool.not_eq_false] at kept
          exact List.isPrefixOf_iff_prefix.mp kept.2
      · intro owned
        have some : text.toList ≠ [] := by
          intro empty
          rw [empty] at owned
          exact nonempty (List.prefix_nil.mp owned)
        refine ⟨fun empty => some (by rw [empty]; rfl), ?_⟩
        rw [if_neg]
        · rfl
        · simp [some, List.isPrefixOf_iff_prefix.mpr owned]
  | null => simp [ownsName]
  | bool value => simp [ownsName]
  | num shown zero => simp [ownsName]
  | arr items => simp [ownsName]
  | obj fields => simp [ownsName]

/-- The end of a lookup. -/
theorem verdict_ok_iff {condition : Prop} [Decidable condition] :
    (if condition then pure () else throw unknownExperiment :
      Except Stop Unit) = .ok () ↔ condition := by
  by_cases holds : condition
  · simp [holds, pure, Except.pure]
  · simp [holds, throw, throwThe, MonadExceptOf.throw]

theorem experimentName_ok {answer : Nat × Json} {name : String}
    (asked : experimentName answer = .ok (.str name)) :
    ∃ data found, answer = (200, .obj data) ∧
      Json.get data "experiment" = .obj found ∧
      Json.get found "name" = .str name := by
  obtain ⟨status, data⟩ := answer
  unfold experimentName at asked
  split at asked
  · rename_i known
    cases known
    obtain ⟨found, asked, read⟩ := bind_ok_iff.mp asked
    rcases field_ok read with null | ⟨fields, rfl, same⟩
    · cases null
    · rcases field_ok asked with null | ⟨members, rfl, inside⟩
      · cases null
      · exact ⟨members, fields, rfl, inside, same⟩
  · cases asked

/-- `_Lookups.experiment` passes the tenant's experiments and no others. -/
theorem experiment_ok_iff {lookups : Lookups} {id : Json} :
    lookups.experiment id = .ok () ↔ Belongs lookups .experiment id := by
  simp only [Lookups.experiment, check_ok_iff, Belongs, InNamespace,
    Bool.not_eq_false]
  refine and_congr_right fun _ => ?_
  constructor
  · intro passed
    obtain ⟨name, asked, owns⟩ := bind_ok_iff.mp passed
    obtain ⟨text, rfl, owned⟩ := ownsName_iff.mp (verdict_ok_iff.mp owns)
    obtain ⟨data, found, same, inside, named⟩ := experimentName_ok asked
    exact ⟨data, found, text, same, inside, named, owned⟩
  · rintro ⟨data, found, name, same, inside, named, owned⟩
    have asked : experimentName (200, .obj data) = .ok (.str name) := by
      refine bind_ok_iff.mpr ⟨_, field_obj data "experiment", ?_⟩
      rw [inside, field_obj, named]
    rw [same]
    refine bind_ok_iff.mpr ⟨_, asked, ?_⟩
    exact verdict_ok_iff.mpr (ownsName_iff.mpr ⟨name, rfl, owned⟩)

theorem owned_ok_iff {lookups : Lookups} {id : Json} :
    lookups.owned id = .ok true ↔ Belongs lookups .experiment id := by
  rw [← experiment_ok_iff, Lookups.owned]
  split
  · rename_i passed
    simp [passed]
  · rename_i failed
    simp [failed]
  · rename_i raised
    simp [raised]

theorem entityExperiment_ok {answer : Nat × Json} {key : String}
    {id : Json} (some : id ≠ .null)
    (asked : entityExperiment answer key = .ok id) :
    ∃ data found info, answer = (200, .obj data) ∧
      Json.get data key = .obj found ∧ Json.get found "info" = .obj info ∧
      Json.get info "experiment_id" = id := by
  obtain ⟨status, data⟩ := answer
  unfold entityExperiment at asked
  split at asked
  · rename_i known
    cases known
    obtain ⟨found, asked, rest⟩ := bind_ok_iff.mp asked
    obtain ⟨info, read, named⟩ := bind_ok_iff.mp rest
    rcases field_ok named with null | ⟨fields, rfl, same⟩
    · exact absurd null some
    · rcases field_ok read with null | ⟨others, rfl, inside⟩
      · cases null
      · rcases field_ok asked with null | ⟨members, rfl, below⟩
        · cases null
        · exact ⟨members, others, fields, rfl, below, inside, same⟩
  · exact absurd (Except.ok.inj asked).symm some

/-- A run's or a logged model's lookup. -/
theorem entity_ok_iff {lookups : Lookups} {answer : Nat × Json}
    {key : String} :
    lookups.entity answer key = .ok () ↔ OfTenant lookups answer key := by
  constructor
  · intro passed
    obtain ⟨id, asked, rest⟩ := bind_ok_iff.mp passed
    obtain ⟨owned, lookup, verdict⟩ := bind_ok_iff.mp rest
    cases verdict_ok_iff.mp verdict
    have belongs := owned_ok_iff.mp lookup
    have some : id ≠ .null := by
      rintro rfl
      cases belongs.1
    obtain ⟨data, found, info, same, inside, named, rfl⟩ :=
      entityExperiment_ok some asked
    exact ⟨data, found, info, same, inside, named, belongs⟩
  · rintro ⟨data, found, info, rfl, inside, named, belongs⟩
    have asked : entityExperiment (200, .obj data) key =
        .ok (Json.get info "experiment_id") := by
      refine bind_ok_iff.mpr ⟨_, field_obj data key, ?_⟩
      rw [inside]
      refine bind_ok_iff.mpr ⟨_, field_obj found "info", ?_⟩
      rw [named, field_obj]
    refine bind_ok_iff.mpr ⟨_, asked, ?_⟩
    exact bind_ok_iff.mpr ⟨true, owned_ok_iff.mpr belongs, rfl⟩

theorem run_ok_iff {lookups : Lookups} {id : Json} :
    lookups.run id = .ok () ↔ Belongs lookups .run id :=
  entity_ok_iff

theorem loggedModel_ok_iff {lookups : Lookups} {id : Json} :
    lookups.loggedModel id = .ok () ↔ Belongs lookups .loggedModel id := by
  simp only [Lookups.loggedModel, check_ok_iff, Belongs, Bool.not_eq_false]
  exact and_congr_right fun _ => entity_ok_iff

theorem checkAll_ok_iff {check : Json → Except Stop Unit}
    {ids : List Json} :
    checkAll check ids = .ok () ↔ ∀ id ∈ ids, check id = .ok () := by
  induction ids with
  | nil => simp [checkAll, pure, Except.pure]
  | cons id ids induction =>
      rw [checkAll, bind_ok_iff, List.forall_mem_cons, ← induction]
      constructor
      · rintro ⟨⟨⟩, passed, rest⟩
        exact ⟨passed, rest⟩
      · rintro ⟨passed, rest⟩
        exact ⟨(), passed, rest⟩

theorem required_ok {missing : String} {check : Json → Except Stop Unit}
    {ids : List Json} (passed : required missing check ids = .ok ()) :
    ∀ id ∈ ids, check id = .ok () := by
  simp only [required, check_ok_iff] at passed
  exact checkAll_ok_iff.mp passed.2

/-! ## What a request carries -/

/-- The known id fields. -/
def idFields : List (String × Kind) := [
  ("experiment_id", .experiment),
  ("experiment_ids", .experiment),
  ("run_id", .run),
  ("run_uuid", .run),
  ("source_run_id", .run),
  ("run_ids", .run),
  ("model_id", .loggedModel)]

/-- Where an id is carried: in a field of the message, in a field of a metric
or a model that the message lists, or in the path. -/
inductive IdPlace where
  | top (name : String)
  | listed (name : String)
  | path
deriving DecidableEq

structure Carried where
  place : IdPlace
  kind : Kind
  id : Json

/-- The ids under one field; an empty value names nothing. -/
def idsUnder (src : Message) (name : String) : List Json :=
  if name ∈ ["experiment_id", "experiment_ids", "run_ids"] then
    asList (Json.get src name)
  else [Json.get src name].filter Json.truthy

def carriedIn (place : String → IdPlace) (src : Message) : List Carried :=
  idFields.flatMap fun named =>
    (idsUnder src named.1).map fun id => ⟨place named.1, named.2, id⟩

/-- The objects of a list. -/
def objectsOf : Json → List Message
  | .arr items => items.filterMap fun item =>
      match item with
      | .obj members => some (Json.dict members)
      | _ => none
  | _ => []

/-- The metrics of `runs/log-batch`, the models of `runs/outputs`. -/
def listedObjects (endpoint : Text) (src : Message) : List Message :=
  if endpoint = "runs/log-batch".toList then
    objectsOf (Json.get src "metrics")
  else if endpoint = "runs/outputs".toList then
    objectsOf (Json.get src "models")
  else []

/-- The logged model that the path names. -/
def pathIds (route : Route) (endpoint : Text) : List Carried :=
  ((route.arguments endpoint).take 1).map fun id =>
    ⟨.path, .loggedModel, .str (String.ofList id)⟩

/-- Every id that a request carries. -/
def carried (route : Route) (endpoint : Text) (src : Message) :
    List Carried :=
  carriedIn .top src ++
    (listedObjects endpoint src).flatMap (carriedIn .listed) ++
    pathIds route endpoint

/-- Whether one of the rules reads the place. -/
def readBy (rules : List Rule) (pathArgs : List Text) : IdPlace → Bool
  | .top name =>
      (.experiment ∈ rules && name ∈ ["experiment_id", "experiment_ids"]) ||
      ((.run ∈ rules || .runOpt ∈ rules) &&
        name ∈ ["run_id", "run_uuid", "source_run_id"]) ||
      (.runs ∈ rules && name = "run_ids") ||
      (name = "model_id" && (.loggedModelOpt ∈ rules ||
        (.loggedModel ∈ rules && pathArgs.isEmpty)))
  | .listed _ => false
  | .path => .loggedModel ∈ rules && !pathArgs.isEmpty

/-- What the checks of the rules come to. -/
structure Checked (lookups : Lookups) (rules : List Rule)
    (pathArgs : List Text) (src : Message) : Prop where
  experiments : .experiment ∈ rules →
    ∀ id ∈ experimentIds src, Belongs lookups .experiment id
  run : .run ∈ rules ∨ .runOpt ∈ rules →
    ∀ id ∈ runIds src, Belongs lookups .run id
  runs : .runs ∈ rules →
    ∀ id ∈ asList (Json.get src "run_ids"), Belongs lookups .run id
  pathModel : .loggedModel ∈ rules → ∀ id rest, pathArgs = id :: rest →
    Belongs lookups .loggedModel (.str (String.ofList id))
  model : .loggedModel ∈ rules ∧ pathArgs = [] →
    Belongs lookups .loggedModel (Json.get src "model_id")
  modelOpt : .loggedModelOpt ∈ rules →
    (Json.get src "model_id").truthy = true →
      Belongs lookups .loggedModel (Json.get src "model_id")

theorem ensureOwns_checked {lookups : Lookups} {rules : List Rule}
    {pathArgs : List Text} {src : Message}
    (passed : ensureOwns lookups rules pathArgs src = .ok ()) :
    Checked lookups rules pathArgs src := by
  simp only [ensureOwns, when_ok_iff] at passed
  obtain ⟨experiments, run, runs, path, model, -⟩ := passed
  refine ⟨?_, ?_, ?_, ?_, ?_, ?_⟩
  · intro rule id member
    exact experiment_ok_iff.mp (required_ok (experiments rule) id member)
  · intro rule id member
    have some : runIds src ≠ [] := List.ne_nil_of_mem member
    have checked := run (rule.imp_right fun opt => ⟨opt, some⟩)
    exact run_ok_iff.mp (required_ok checked id member)
  · intro rule id member
    exact run_ok_iff.mp (required_ok (runs rule) id member)
  · rintro rule id rest rfl
    exact loggedModel_ok_iff.mp (path rule)
  · rintro ⟨rule, rfl⟩
    exact loggedModel_ok_iff.mp (path rule)
  · intro rule some
    exact loggedModel_ok_iff.mp (model ⟨rule, some⟩)

/-- A carried id that a rule reads was looked up. -/
theorem Checked.carried {lookups : Lookups} {route : Route}
    {endpoint : Text} {pathArgs : List Text} {src : Message}
    (checked : Checked lookups route.rules pathArgs src)
    (args : pathArgs = [] ∨ pathArgs = route.arguments endpoint) :
    ∀ one ∈ carried route endpoint src,
      readBy route.rules pathArgs one.place = true →
        Belongs lookups one.kind one.id := by
  intro one member read
  rcases List.mem_append.mp member with inMessage | inPath
  · rcases List.mem_append.mp inMessage with inTop | inListed
    · obtain ⟨⟨name, kind⟩, known, found⟩ := List.mem_flatMap.mp inTop
      obtain ⟨id, inside, rfl⟩ := List.mem_map.mp found
      have scalar {name : String} (some : id ∈
          [Json.get src name].filter Json.truthy)
          (own : name ∈ ["run_id", "run_uuid", "source_run_id"]) :
          id ∈ runIds src := by
        obtain ⟨same, truthy⟩ := List.mem_filter.mp some
        refine List.mem_filter.mpr ⟨?_, truthy⟩
        rw [List.mem_singleton.mp same]
        simp only [List.mem_cons, List.not_mem_nil, or_false] at own ⊢
        rcases own with rfl | rfl | rfl
        · exact .inl rfl
        · exact .inr (.inl rfl)
        · exact .inr (.inr rfl)
      simp only [idFields, List.mem_cons, List.not_mem_nil, or_false,
        Prod.mk.injEq] at known
      rcases known with ⟨rfl, rfl⟩ | ⟨rfl, rfl⟩ | ⟨rfl, rfl⟩ | ⟨rfl, rfl⟩ |
        ⟨rfl, rfl⟩ | ⟨rfl, rfl⟩ | ⟨rfl, rfl⟩
      · refine checked.experiments (by simpa [readBy] using read) id ?_
        exact List.mem_append_left _ inside
      · refine checked.experiments (by simpa [readBy] using read) id ?_
        exact List.mem_append_right _ inside
      · refine checked.run (by simpa [readBy] using read) id ?_
        exact scalar inside (by simp)
      · refine checked.run (by simpa [readBy] using read) id ?_
        exact scalar inside (by simp)
      · refine checked.run (by simpa [readBy] using read) id ?_
        exact scalar inside (by simp)
      · exact checked.runs (by simpa [readBy] using read) id inside
      · obtain ⟨same, truthy⟩ := List.mem_filter.mp inside
        cases List.mem_singleton.mp same
        have rules : .loggedModelOpt ∈ route.rules ∨
            .loggedModel ∈ route.rules ∧ pathArgs = [] := by
          simpa [readBy] using read
        rcases rules with opt | own
        · exact checked.modelOpt opt truthy
        · exact checked.model own
    · obtain ⟨object, -, found⟩ := List.mem_flatMap.mp inListed
      obtain ⟨named, -, found⟩ := List.mem_flatMap.mp found
      obtain ⟨id, -, rfl⟩ := List.mem_map.mp found
      cases read
  · obtain ⟨id, first, rfl⟩ := List.mem_map.mp inPath
    obtain ⟨rule, nonempty⟩ :
        .loggedModel ∈ route.rules ∧ pathArgs ≠ [] := by
      simpa [readBy] using read
    have same := args.resolve_left nonempty
    rw [← same] at first
    cases pathArgs with
    | nil => exact absurd rfl nonempty
    | cons head rest =>
        cases List.mem_singleton.mp first
        exact checked.pathModel rule _ _ rfl

theorem matchRoute_arguments {method : HttpMethod} {endpoint : Text}
    {route : Route} {pathArgs : List Text}
    (matched : matchRoute method endpoint = some (route, pathArgs)) :
    pathArgs = [] ∨ pathArgs = route.arguments endpoint := by
  unfold matchRoute at matched
  split at matched
  · cases matched
  · split at matched
    · cases matched
      exact .inl rfl
    · obtain ⟨entry, -, same⟩ := Option.map_eq_some_iff.mp matched
      obtain ⟨rfl, rfl⟩ := Prod.mk.inj same
      exact .inr rfl

/-- What a request that is forwarded has passed. -/
theorem proxy_ok {lookups : Lookups} {method : HttpMethod} {endpoint : Text}
    {query : List (String × String)} {body : Body} {nonce : Text}
    {forwarded : Forwarded}
    (sent : proxy lookups method endpoint query body nonce = .ok forwarded) :
    ∃ route pathArgs message,
      matchRoute method endpoint = some (route, pathArgs) ∧
      requestMessage method query body = .ok message ∧
      (∀ name ∈ requestNameFields endpoint, name ∈ message.map Prod.fst →
        isText (Json.get message name) = true) ∧
      Checked lookups route.rules pathArgs message ∧
      forwarded =
        forwardMessage lookups.company method endpoint nonce message := by
  unfold proxy at sent
  split at sent
  · cases sent
  · rename_i route pathArgs matched
    obtain ⟨message, asked, rest⟩ := bind_ok_iff.mp sent
    simp only [check_ok_iff] at rest
    obtain ⟨texts, rest⟩ := rest
    obtain ⟨⟨⟩, passed, ended⟩ := bind_ok_iff.mp rest
    have read : requestMessage method query body = .ok message := by
      cases sentMessage : requestMessage method query body with
      | ok found =>
          rw [sentMessage] at asked
          cases asked
          rfl
      | error refusal =>
          rw [sentMessage] at asked
          cases asked
    refine ⟨route, pathArgs, message, matched, read, ?_,
      ensureOwns_checked passed, (Except.ok.inj ended).symm⟩
    intro name member inside
    by_contra other
    refine texts (List.any_eq_true.mpr ⟨name, member, ?_⟩)
    simpa [inside] using other

/-- Two tenants with an experiment, a run and a logged model each. -/
def twoTenants (company other : Company) : Lookups where
  company
  experimentsGet id :=
    let named (tenant : Company) : Nat × Json :=
      (200, .obj [("experiment", .obj
        [("name", .str (String.ofList (namePrefix tenant ++ ['e'])))])])
    if id = "5" then named company
    else if id = "7" then named other
    else (404, .obj [])
  runsGet id := (200, .obj [("run", .obj [("info", .obj
    [("experiment_id", .str (if id = "own" then "5" else "7"))])])])
  loggedModelsGet id := (200, .obj [("model", .obj [("info", .obj
    [("experiment_id", .str (if id = "own" then "5" else "7"))])])])
  repr _ := ""

end IndustryFlow.Tracking
