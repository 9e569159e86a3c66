import IndustryFlow.Alerts.RuleLoads
import IndustryFlow.Alerts.Thresholds

/-!
# How a reading spells its ids

A reading may spell a UUID in any way that `uuid.UUID` takes.  The sensor and
the equipment are canonical once the reading is parsed, and so is the tenant in
the feature store's key and in the schema's name; but the rules, the cached
names of sensors and the scope of an alert are under the tenant's id as the
reading spells it.  The rules are loaded under canonical ids, and any other
spelling finds none.
-/

namespace IndustryFlow.AlertRules

open AlertWorker (Python Reading Own Rules Worker LoadEvent TakesTenants
  codePoints_ofList
  parseReading codePoints get)
open Concurrent
open Isoformat (Datetime isoformat)
open JsonText (Text Value)

/-! ## The evaluation of a reading -/

/-- A company id that `uuid.UUID` may take: `str` of any other value that JSON
has is no UUID. -/
inductive CompanyId where
  | text (spelled : Text)
  | int (negative : Bool) (digits : List Char)
deriving DecidableEq

def CompanyId.value : CompanyId → Value
  | .text spelled => .text spelled
  | .int negative digits => .int negative digits

/-- The scope of an alert, as `_emit` forms it. -/
structure EmitScope where
  company : CompanyId
  ruleId : Nat
  sensorId : Text
  equipmentId : Option Text
deriving DecidableEq

/-- What an evaluation takes from its surroundings. -/
structure Surroundings (Database : Type) where
  python : Python
  detector : Detector
  /-- There is a feature store. -/
  featureStore : Bool
  /-- `get_sensor_name`, in the schema of the tenant. -/
  sensorName : Text → Text → Except AlertWorker.Fault (Option Text)
  /-- `str` of a rule's id. -/
  ruleText : Nat → Text
  /-- `as_utc`, or an `OverflowError`. -/
  asUtc : Datetime → Option Datetime
  /-- `uuid.uuid5` in the namespace of alert ids. -/
  uuid5 : Text → Text
  /-- `abs(at - last) < window`. -/
  within : Datetime → Datetime → Bool
  dedupCacheMax : Nat
  /-- `save_alert_once`, in the schema of the tenant: whether a row was
  inserted, and the time of the alert that stood against it. -/
  save : Database → Text → Text → Datetime → Alert →
    Except AlertWorker.Fault ((Bool × Option Datetime) × Database)

/-- The state of `RulesEngine`, and the database. -/
structure Engine (Database : Type) where
  tenantRules : Rules (Nat × Row)
  /-- `sensor_name_cache`. -/
  sensorNames : CompanyId → Text → Option Text
  /-- `_last_emit`, least recently used first. -/
  lastEmit : List (EmitScope × Datetime)
  database : Database

/-- An alert that was stored, as it is returned. -/
structure Emitted where
  company : CompanyId
  alertId : Text
  triggeredAt : Datetime
  alert : Alert

/-- What the loop over the rules leaves behind, and its answer. -/
structure Emissions where
  stored : List (Text × Alert)
  result : Except AlertWorker.Raised (List Emitted)

/-- What an evaluation does: the key it stores the reading under, the rules it
applies, the alerts it stores, and its answer. -/
structure Outcome where
  key : Option Text
  applied : List (Nat × Row)
  stored : List (Text × Alert)
  result : Except AlertWorker.Raised (List Emitted)

section

variable {Database : Type} (surroundings : Surroundings Database)

/-- `str(uuid.UUID(str(company_id)))`. -/
def tenantOf (python : Python) (company : CompanyId) : Option Text :=
  ((python.uuidField company.value "company_id" true).toOption).join

/-- `_get_sensor_name`. -/
def getSensorName (engine : Engine Database) (company : CompanyId)
    (tenant sensorId : Text) :
    Except AlertWorker.Fault (Text × Engine Database) :=
  match engine.sensorNames company sensorId with
  | some name => .ok (name, engine)
  | none => do
      let found ← surroundings.sensorName tenant sensorId
      match found.filter (· ≠ []) with
      | none => .ok (sensorId, engine)
      | some name => .ok (name, { engine with
          sensorNames := Function.update engine.sensorNames company
            (Function.update (engine.sensorNames company) sensorId
              (some name)) })

/-- `_make_key`; `none` is a `ValueError`, which is logged. -/
def makeKey (tenant equipmentId name : Text) : Option Text :=
  (surroundings.python.uuid equipmentId).map fun equipment =>
    codePoints "features:" ++ tenant ++ codePoints ":" ++ equipment ++
      codePoints ":" ++ name

/-- The key under which the reading is stored, if it is. -/
def storeReading (engine : Engine Database) (company : CompanyId)
    (tenant : Text) (reading : Reading) :
    Except AlertWorker.Fault (Option Text × Engine Database) :=
  match surroundings.featureStore, reading.equipmentId with
  | true, some equipmentId => do
      let (name, engine) ←
        getSensorName surroundings engine company tenant reading.sensorId
      .ok (makeKey surroundings tenant equipmentId name, engine)
  | _, _ => .ok (none, engine)

/-- `self.tenant_rules.get(company_id, [])`. -/
def Engine.rules (engine : Engine Database) : CompanyId → List (Nat × Row)
  | .text spelled => (engine.tenantRules spelled).getD []
  | .int _ _ => []

/-- `_get_applicable_rules`. -/
def getApplicableRules (engine : Engine Database) (company : CompanyId)
    (reading : Reading) : List (Nat × Row) :=
  (engine.rules company).filter fun rule => applicable rule.2 reading

/-- `_evaluate_rule`; no rule that applies to a reading has a model. -/
def evaluateRule (rule : Nat × Row) (reading : Reading) :
    Except Own (Option Alert) :=
  match rule.2 .detectionType with
  | some .threshold =>
      evaluateThreshold surroundings.detector rule.1 rule.2 reading
  | _ => .ok none

/-- The name under `deterministic_alert_id`. -/
def alertName (scope : EmitScope) (time : Datetime) : Except Own Text := do
  let company ← surroundings.python.str scope.company.value
  .ok ((codePoints "|").intercalate
    [company, surroundings.ruleText scope.ruleId, scope.sensorId,
      scope.equipmentId.getD [], codePoints (isoformat time.toFields)])

/-- `_remember`. -/
def Engine.remember (engine : Engine Database) (scope : EmitScope)
    (time : Datetime) : Engine Database :=
  let moved := engine.lastEmit.filter (·.1 ≠ scope) ++ [(scope, time)]
  { engine with
    lastEmit := moved.drop (moved.length - surroundings.dedupCacheMax) }

/-- `_cached_within`. -/
def cachedWithin (engine : Engine Database) (scope : EmitScope)
    (time : Datetime) : Bool :=
  match engine.lastEmit.find? (·.1 = scope) with
  | none => false
  | some (_, last) => surroundings.within time last

/-- `_emit`: the alert, if it was stored. -/
def emit (engine : Engine Database) (company : CompanyId) (tenant : Text)
    (alert : Alert) :
    Except AlertWorker.Raised (Option Emitted × Engine Database) := do
  let scope : EmitScope :=
    ⟨company, alert.ruleId, alert.sensorId, alert.equipmentId⟩
  let time ← AlertWorker.ofOwn
    (match surroundings.asUtc alert.triggeredAt with
    | some time => .ok time
    | none => .error .overflow)
  let name ← AlertWorker.ofOwn (alertName surroundings scope time)
  let alertId := surroundings.uuid5 name
  if cachedWithin surroundings engine scope time then .ok (none, engine)
  else do
    let ((inserted, prior), database) ← AlertWorker.ofDependency
      (surroundings.save engine.database tenant alertId time alert)
    let saved := { engine with database }
    if inserted then
      .ok (some ⟨company, alertId, time, alert⟩,
        saved.remember surroundings scope time)
    else
      match prior with
      | none => .ok (none, saved)
      | some last => .ok (none, saved.remember surroundings scope last)

/-- The loop over the rules that apply. -/
def evaluateRules (company : CompanyId) (tenant : Text) (reading : Reading) :
    List (Nat × Row) → Engine Database → Emissions × Engine Database
  | [], engine => (⟨[], .ok []⟩, engine)
  | rule :: rules, engine =>
      match evaluateRule surroundings rule reading with
      | .error error => (⟨[], .error (.own error)⟩, engine)
      | .ok none => evaluateRules company tenant reading rules engine
      | .ok (some alert) =>
          match emit surroundings engine company tenant alert with
          | .error raised => (⟨[], .error raised⟩, engine)
          | .ok (none, next) =>
              evaluateRules company tenant reading rules next
          | .ok (some emitted, next) =>
              let (rest, last) :=
                evaluateRules company tenant reading rules next
              (⟨(emitted.alertId, alert) :: rest.stored,
                rest.result.map (emitted :: ·)⟩, last)

/-- `evaluate`. -/
def evaluate (engine : Engine Database) (sensorData : Value)
    (company : CompanyId) : Outcome × Engine Database :=
  match parseReading surroundings.python sensorData company.value with
  | .error error => (⟨none, [], [], .error (.own error)⟩, engine)
  | .ok reading =>
      let tenant := (tenantOf surroundings.python company).getD []
      match storeReading surroundings engine company tenant reading with
      | .error fault => (⟨none, [], [], .error (.dependency fault)⟩, engine)
      | .ok (key, stored) =>
          let applied := getApplicableRules stored company reading
          let (emissions, last) := evaluateRules surroundings company tenant
            reading applied stored
          (⟨key, applied, emissions.stored, emissions.result⟩, last)

/-! ## Two spellings -/

/-- The readings differ in nothing but how they spell their ids. -/
structure Respelled (python : Python) (fields others : List (Text × Value)) :
    Prop where
  sensor : python.uuidField (get others "sensor_id") "sensor_id" true =
    python.uuidField (get fields "sensor_id") "sensor_id" true
  equipment : python.uuidField (get others "equipment_id") "equipment_id"
      false =
    python.uuidField (get fields "equipment_id") "equipment_id" false
  rest : ∀ name ∉ ["company_id", "sensor_id", "equipment_id"],
    get others name = get fields name

/-- The name of a sensor: the one that is cached under the spelling, or else
the database's. -/
def knownName (engine : Engine Database) (company : CompanyId)
    (tenant sensorId : Text) : Except AlertWorker.Fault Text :=
  match engine.sensorNames company sensorId with
  | some name => .ok name
  | none => (surroundings.sensorName tenant sensorId).map
      fun found => (found.filter (· ≠ [])).getD sensorId

/-- The name that a reading is stored under, where it is stored. -/
def storedName (engine : Engine Database) (company : CompanyId)
    (tenant : Text) (reading : Reading) :
    Except AlertWorker.Fault (Option Text) :=
  match surroundings.featureStore, reading.equipmentId with
  | true, some _ =>
      (knownName surroundings engine company tenant reading.sensorId).map some
  | _, _ => .ok none

/-- No rule that is loaded under the spelling applies to the reading. -/
def Unruled (engine : Engine Database) (reading : Reading)
    (company : CompanyId) : Prop :=
  ∀ rule ∈ engine.rules company, applicable rule.2 reading = false

/-- The spellings of the tenant are one, or the sensor has one name under both
and, unless its name cannot be read, no rule under either applies. -/
def Indifferent (engine : Engine Database) (tenant : Text)
    (reading : Reading) (company other : CompanyId) : Prop :=
  company = other ∨
    (storedName surroundings engine company tenant reading =
        storedName surroundings engine other tenant reading ∧
      ∀ name,
        storedName surroundings engine company tenant reading = .ok name →
        Unruled engine reading company ∧ Unruled engine reading other)

end

section

variable {Database : Type} {surroundings : Surroundings Database}
variable {engine : Engine Database}

theorem storedName_unequipped {company : CompanyId} {tenant : Text}
    {reading : Reading} (unequipped : reading.equipmentId = none) :
    storedName surroundings engine company tenant reading = .ok none := by
  rw [storedName, unequipped]
  cases surroundings.featureStore with
  | false => rfl
  | true => rfl

theorem applicableRules_nil {company : CompanyId} {reading : Reading} :
    getApplicableRules engine company reading = [] ↔
      Unruled engine reading company := by
  unfold getApplicableRules Unruled
  rw [List.filter_eq_nil_iff]
  simp only [Bool.not_eq_true]

/-- A reading is read the same however its ids are spelled. -/
theorem parseReading_respelled {python : Python}
    {fields others : List (Text × Value)} {company other : CompanyId}
    {tenant : Text} (respelled : Respelled python fields others)
    (named : python.uuidField company.value "company_id" true =
      .ok (some tenant))
    (also : python.uuidField other.value "company_id" true =
      .ok (some tenant)) :
    parseReading python (.object others) other.value =
      parseReading python (.object fields) company.value := by
  have same {name : String}
      (apart : name ∉ ["company_id", "sensor_id", "equipment_id"]) :=
    respelled.rest name apart
  simp only [parseReading, named, also, respelled.sensor,
    respelled.equipment]
  rw [same (by decide), same (by decide), same (by decide),
    same (by decide)]

/-- The key under a name. -/
def keyOf (surroundings : Surroundings Database) (tenant : Text)
    (reading : Reading) (name : Option Text) : Option Text :=
  name.bind fun name => reading.equipmentId.bind fun equipmentId =>
    makeKey surroundings tenant equipmentId name

theorem getSensorName_eq (surroundings : Surroundings Database)
    (engine : Engine Database) (company : CompanyId)
    (tenant sensorId : Text) :
    ∃ after : Engine Database, after.tenantRules = engine.tenantRules ∧
      getSensorName surroundings engine company tenant sensorId =
        (knownName surroundings engine company tenant sensorId).map
          fun name => (name, after) := by
  unfold getSensorName knownName
  cases cached : engine.sensorNames company sensorId with
  | some name => exact ⟨engine, rfl, rfl⟩
  | none =>
      cases asked : surroundings.sensorName tenant sensorId with
      | error fault => exact ⟨engine, rfl, rfl⟩
      | ok found =>
          cases known : found.filter (· ≠ []) with
          | none =>
              refine ⟨engine, rfl, ?_⟩
              simp only [known, bind, Except.bind, Except.map,
                Option.getD_none]
          | some name =>
              refine ⟨{ engine with
                sensorNames := Function.update engine.sensorNames company
                  (Function.update (engine.sensorNames company) sensorId
                    (some name)) }, rfl, ?_⟩
              simp only [known, bind, Except.bind, Except.map,
                Option.getD_some]

theorem storeReading_eq (surroundings : Surroundings Database)
    (engine : Engine Database) (company : CompanyId) (tenant : Text)
    (reading : Reading) :
    ∃ after : Engine Database, after.tenantRules = engine.tenantRules ∧
      storeReading surroundings engine company tenant reading =
        (storedName surroundings engine company tenant reading).map
          fun name => (keyOf surroundings tenant reading name, after) := by
  unfold storeReading storedName
  cases surroundings.featureStore with
  | false => exact ⟨engine, rfl, rfl⟩
  | true =>
      cases equipped : reading.equipmentId with
      | none => exact ⟨engine, rfl, rfl⟩
      | some equipmentId =>
          obtain ⟨after, same, named⟩ := getSensorName_eq surroundings
            engine company tenant reading.sensorId
          refine ⟨after, same, ?_⟩
          simp only [named]
          cases knownName surroundings engine company tenant
              reading.sensorId with
          | error fault => rfl
          | ok name =>
              simp only [bind, Except.bind, Except.map, keyOf, equipped,
                Option.bind_some]

/-- What an evaluation does once the reading is parsed. -/
theorem evaluate_eq (surroundings : Surroundings Database)
    (engine : Engine Database) {sensorData : Value} {company : CompanyId}
    {tenant : Text} {reading : Reading}
    (parsed : parseReading surroundings.python sensorData company.value =
      .ok reading)
    (named : tenantOf surroundings.python company = some tenant) :
    ∃ after : Engine Database, after.tenantRules = engine.tenantRules ∧
      (evaluate surroundings engine sensorData company).1 =
        match storedName surroundings engine company tenant reading with
        | .error fault => ⟨none, [], [], .error (.dependency fault)⟩
        | .ok name =>
            let applied := getApplicableRules after company reading
            let emissions := (evaluateRules surroundings company tenant
              reading applied after).1
            ⟨keyOf surroundings tenant reading name, applied,
              emissions.stored, emissions.result⟩ := by
  obtain ⟨after, same, stored⟩ :=
    storeReading_eq surroundings engine company tenant reading
  refine ⟨after, same, ?_⟩
  simp only [evaluate, parsed, named, Option.getD_some, stored]
  cases storedName surroundings engine company tenant reading with
  | error fault => rfl
  | ok name => rfl

/-- The rules are under canonical ids. -/
def Keyed (python : Python) (tenantRules : Rules (Nat × Row)) : Prop :=
  ∀ company rules, tenantRules company = some rules →
    python.uuid company = some company

/-- Of two spellings of a tenant, one at most has rules. -/
theorem unruled_of_ne {python : Python} {company other : CompanyId}
    {tenant : Text} (keyed : Keyed python engine.tenantRules)
    (named : python.uuidField company.value "company_id" true =
      .ok (some tenant))
    (also : python.uuidField other.value "company_id" true =
      .ok (some tenant)) (different : company ≠ other) :
    engine.rules company = [] ∨ engine.rules other = [] := by
  have canonical {spelling : CompanyId}
      (known : python.uuidField spelling.value "company_id" true =
        .ok (some tenant)) (ruled : engine.rules spelling ≠ []) :
      spelling = .text tenant := by
    cases spelling with
    | int negative digits => exact absurd rfl ruled
    | text spelled =>
        cases held : engine.tenantRules spelled with
        | none =>
            refine absurd ?_ ruled
            simp [Engine.rules, held]
        | some rules =>
            have own := keyed spelled rules held
            rw [AlertWorker.uuidField_text known] at own
            rw [Option.some.inj own]
  by_contra both
  rw [not_or] at both
  exact different ((canonical named both.1).trans
    (canonical also both.2).symm)

theorem Unruled.of_nil {reading : Reading} {company : CompanyId}
    (none : engine.rules company = []) : Unruled engine reading company := by
  intro rule member
  rw [none] at member
  cases member

theorem unruled_congr {after : Engine Database} {reading : Reading}
    {company : CompanyId} (same : after.tenantRules = engine.tenantRules) :
    Unruled after reading company ↔ Unruled engine reading company := by
  have rules : after.rules company = engine.rules company := by
    cases company with
    | text spelled => rw [Engine.rules, same, Engine.rules]
    | int negative digits => rfl
  unfold Unruled
  rw [rules]

theorem makeKey_injective {tenant equipmentId left right : Text}
    (canonical : surroundings.python.uuid equipmentId ≠ none)
    (same : makeKey surroundings tenant equipmentId left =
      makeKey surroundings tenant equipmentId right) : left = right := by
  obtain ⟨equipment, known⟩ := Option.ne_none_iff_exists'.mp canonical
  rw [makeKey, makeKey, known] at same
  exact List.append_cancel_left (Option.some.inj same)

/-- `str(uuid.UUID(text))` is taken for the UUID that it spells. -/
def Canonical (python : Python) : Prop :=
  ∀ text canonical, python.uuid text = some canonical →
    python.uuid canonical = some canonical

theorem uuidField_canonical {python : Python} (canonical : Canonical python)
    {raw : Value} {field : String} {required : Bool} {text : Text}
    (read : python.uuidField raw field required = .ok (some text)) :
    python.uuid text = some text := by
  unfold Python.uuidField at read
  split at read
  · split at read
    · cases read
    · cases read
  · split at read
    · cases read
    · cases read
  · obtain ⟨shown, -, rest⟩ := bind_ok_iff.mp read
    split at rest
    · rename_i spelled
      cases rest
      exact canonical shown _ spelled
    · unfold Python.invalid at rest
      split at rest
      · cases rest
      · cases rest

theorem parseReading_equipment {python : Python}
    (canonical : Canonical python) {fields : List (Text × Value)}
    {companyId : Value} {reading : Reading} {equipmentId : Text}
    (parsed : parseReading python (.object fields) companyId = .ok reading)
    (equipped : reading.equipmentId = some equipmentId) :
    python.uuid equipmentId = some equipmentId := by
  simp only [parseReading, bind_ok_iff] at parsed
  obtain ⟨_, _, _, _, equipment, read, value, _, time, _, timestamp, _,
    same⟩ := parsed
  cases same
  subst equipped
  exact uuidField_canonical canonical read

theorem storedName_of_key {company other : CompanyId} {tenant : Text}
    {reading : Reading} {name otherName : Option Text}
    (canonical : ∀ equipmentId, reading.equipmentId = some equipmentId →
      surroundings.python.uuid equipmentId ≠ none)
    (first : storedName surroundings engine company tenant reading = .ok name)
    (second : storedName surroundings engine other tenant reading =
      .ok otherName)
    (same : keyOf surroundings tenant reading name =
      keyOf surroundings tenant reading otherName) :
    name = otherName := by
  have quiet (unstored : ∀ spelling,
      storedName surroundings engine spelling tenant reading = .ok none) :
      name = otherName := by
    rw [unstored company] at first
    rw [unstored other] at second
    cases first
    cases second
    rfl
  cases there : surroundings.featureStore with
  | false => exact quiet fun spelling => by simp only [storedName, there]
  | true =>
      cases equipped : reading.equipmentId with
      | none =>
          exact quiet fun spelling => by
            simp only [storedName, there, equipped]
      | some equipmentId =>
          have some_name {spelling : CompanyId} {found : Option Text}
              (stored : storedName surroundings engine spelling tenant
                reading = .ok found) : ∃ name, found = some name := by
            simp only [storedName, there, equipped] at stored
            cases asked : knownName surroundings engine spelling tenant
                reading.sensorId with
            | error fault =>
                rw [asked] at stored
                cases stored
            | ok answer =>
                rw [asked] at stored
                exact ⟨answer, (Except.ok.inj stored).symm⟩
          obtain ⟨left, rfl⟩ := some_name first
          obtain ⟨right, rfl⟩ := some_name second
          simp only [keyOf, equipped, Option.bind_some] at same
          rw [makeKey_injective (canonical equipmentId equipped) same]

/-- The outcome is the same under both spellings exactly where the evaluation
does not look under either. -/
theorem outcome_iff {fields others : List (Text × Value)}
    {company other : CompanyId} {tenant : Text} {reading : Reading}
    (keyed : Keyed surroundings.python engine.tenantRules)
    (canonical : Canonical surroundings.python)
    (parsed : parseReading surroundings.python (.object fields)
      company.value = .ok reading)
    (named : surroundings.python.uuidField company.value "company_id" true =
      .ok (some tenant))
    (also : surroundings.python.uuidField other.value "company_id" true =
      .ok (some tenant))
    (respelled : Respelled surroundings.python fields others) :
    (evaluate surroundings engine (.object fields) company).1 =
        (evaluate surroundings engine (.object others) other).1 ↔
      Indifferent surroundings engine tenant reading company other := by
  have again : parseReading surroundings.python (.object others)
      other.value = .ok reading :=
    (parseReading_respelled respelled named also).trans parsed
  have tenantOf_eq {spelling : CompanyId}
      (known : surroundings.python.uuidField spelling.value "company_id"
        true = .ok (some tenant)) :
      tenantOf surroundings.python spelling = some tenant := by
    rw [tenantOf, known]
    rfl
  obtain ⟨first, sameFirst, evaluated⟩ :=
    evaluate_eq surroundings engine parsed (tenantOf_eq named)
  obtain ⟨second, sameSecond, otherwise⟩ :=
    evaluate_eq surroundings engine again (tenantOf_eq also)
  constructor
  · intro same
    by_cases one : company = other
    · exact .inl one
    rw [evaluated, otherwise] at same
    have bare := unruled_of_ne keyed named also one
    have unruledFirst : Unruled first reading company ↔
        Unruled engine reading company := unruled_congr sameFirst
    have unruledSecond : Unruled second reading other ↔
        Unruled engine reading other := unruled_congr sameSecond
    refine .inr ?_
    cases nameFirst : storedName surroundings engine company tenant
        reading with
    | error fault =>
        cases nameSecond : storedName surroundings engine other tenant
            reading with
        | error otherFault =>
            rw [nameFirst, nameSecond] at same
            have result := congrArg Outcome.result same
            cases result
            exact ⟨rfl, nofun⟩
        | ok name =>
            rw [nameFirst, nameSecond] at same
            have applied : getApplicableRules second other reading = [] :=
              (congrArg Outcome.applied same).symm
            have result := congrArg Outcome.result same
            simp only [applied, evaluateRules] at result
            cases result
    | ok name =>
        cases nameSecond : storedName surroundings engine other tenant
            reading with
        | error fault =>
            rw [nameFirst, nameSecond] at same
            have applied : getApplicableRules first company reading = [] :=
              congrArg Outcome.applied same
            have result := congrArg Outcome.result same
            simp only [applied, evaluateRules] at result
            cases result
        | ok otherName =>
            rw [nameFirst, nameSecond] at same
            have key := congrArg Outcome.key same
            have applied : getApplicableRules first company reading =
                getApplicableRules second other reading :=
              congrArg Outcome.applied same
            have canonicalEquipment (equipmentId : Text)
                (equipped : reading.equipmentId = some equipmentId) :
                surroundings.python.uuid equipmentId ≠ none := by
              rw [parseReading_equipment canonical parsed equipped]
              exact Option.some_ne_none _
            rw [storedName_of_key canonicalEquipment nameFirst nameSecond
              key]
            refine ⟨rfl, fun _ _ => ?_⟩
            rw [← unruledFirst, ← unruledSecond, ← applicableRules_nil,
              ← applicableRules_nil, applied, and_self]
            rcases bare with none | none
            · rw [← applied, applicableRules_nil, unruledFirst]
              exact .of_nil none
            · rw [applicableRules_nil, unruledSecond]
              exact .of_nil none
  · rintro (rfl | ⟨names, unruled⟩)
    · simp only [evaluate, parsed, again]
    · rw [evaluated, otherwise, ← names]
      cases named : storedName surroundings engine company tenant
          reading with
      | error fault => rfl
      | ok name =>
          obtain ⟨left, right⟩ := unruled name named
          have none : getApplicableRules first company reading = [] :=
            applicableRules_nil.mpr ((unruled_congr sameFirst).mpr left)
          have also : getApplicableRules second other reading = [] :=
            applicableRules_nil.mpr ((unruled_congr sameSecond).mpr right)
          simp only [none, also, evaluateRules]

end

/-- In every state of the worker that loads lead to, the outcome for a reading
is the same under two spellings of its ids exactly where they spell the tenant
alike, or where its rules are not looked for and its sensor has one name. -/
theorem evaluate_respelled_iff {Database ReadAlert : Type}
    (surroundings : Surroundings Database) (otherDigit : List Char → Option Int)
    (config : AlertWorker.Config) (registry : List AlertWorker.RegistryRow)
    (events : List (LoadEvent (Nat × Row) ReadAlert))
    (worker : Worker (Nat × Row)) (engine : Engine Database)
    (fields others : List (Text × Value)) (company other : CompanyId)
    (tenant : Text) (reading : Reading)
    (takes : TakesTenants otherDigit surroundings.python)
    (canonical : Canonical surroundings.python)
    (ran : run (Worker.step otherDigit config) (.start registry) events =
      some worker)
    (loaded : worker.tenantRules = some engine.tenantRules)
    (accepted : parseReading surroundings.python (.object fields)
      company.value = .ok reading)
    (named : surroundings.python.uuidField company.value "company_id" true =
      .ok (some tenant))
    (also : surroundings.python.uuidField other.value "company_id" true =
      .ok (some tenant))
    (respelled : Respelled surroundings.python fields others) :
    (evaluate surroundings engine (.object fields) company).1 =
        (evaluate surroundings engine (.object others) other).1 ↔
      Indifferent surroundings engine tenant reading company other := by
  have sound : AlertWorker.Sound otherDigit worker :=
    run_preserves (AlertWorker.Sound otherDigit)
      (fun _ _ _ held taken => AlertWorker.step_sound held taken)
      (AlertWorker.start_sound registry) ran
  have holding := sound engine.tenantRules loaded
  have keyed : Keyed surroundings.python engine.tenantRules := by
    intro spelled rules held
    obtain ⟨schema, companyId, known, rfl⟩ :=
      holding.keyed spelled rules held
    exact takes schema companyId known
  exact outcome_iff keyed canonical accepted named also respelled

/-! ## A tenant in upper case -/

open AlertWorker (noOther plainPython plainConfig sampleRegistry sampleTenant
  uuidField_of_text)
open Tenancy.Names (canonicalCompanyId canonicalCompanyId_ok_iff
  canonicalCompanyId_uuidText companyIdFromSchema_exact uuidInt_uuidText
  uuidInt_small)

def hexUuid (text : Text) : Option Text :=
  match canonicalCompanyId noOther (String.ofList (text.map Char.ofNat)) with
  | .ok canonical => some (codePoints canonical)
  | .error _ => none

theorem hexUuid_of_canonical {text canonical : String}
    (own : canonicalCompanyId noOther text = .ok canonical) :
    hexUuid (codePoints text) = some (codePoints canonical) := by
  have spelled : String.ofList ((codePoints text).map Char.ofNat) = text := by
    have chars (char : Char) : (Char.ofNat ∘ Char.toNat) char = char :=
      Char.ofNat_toNat char
    rw [codePoints, List.map_map, List.map_congr_left fun char _ =>
      chars char, List.map_id', String.ofList_toList]
  rw [hexUuid, spelled, own]

theorem codePoints_ne_nil {head : Char} (tail : List Char) :
    codePoints (String.ofList (head :: tail)) ≠ [] := by
  rw [codePoints_ofList]
  exact List.cons_ne_nil _ _

def hexPython : Python :=
  { plainPython with uuid := hexUuid }

theorem hexPython_uuid : hexPython.uuid = hexUuid := by
  rw [hexPython]

theorem hexPython_canonical : Canonical hexPython := by
  intro text canonical found
  rw [hexPython_uuid] at found ⊢
  unfold hexUuid at found
  split at found
  · rename_i spelled known
    obtain ⟨value, parsed, same⟩ := canonicalCompanyId_ok_iff.mp known
    have own : canonicalCompanyId noOther spelled = .ok spelled := by
      rw [same]
      exact canonicalCompanyId_ok_iff.mpr
        ⟨value, uuidInt_uuidText noOther (uuidInt_small parsed), rfl⟩
    rw [← Option.some.inj found]
    exact hexUuid_of_canonical own
  · cases found

theorem hexPython_takes : TakesTenants noOther hexPython := by
  intro schema companyId known
  have own := ((companyIdFromSchema_exact noOther schema companyId).mp
    known).1
  rw [hexPython_uuid]
  exact hexUuid_of_canonical own

def hexSurroundings : Surroundings Unit where
  python := hexPython
  detector := sampleDetector
  featureStore := true
  sensorName _ _ := .ok none
  ruleText _ := codePoints "rule"
  asUtc := some
  uuid5 := id
  within _ _ := false
  dedupCacheMax := 10
  save _ _ _ _ _ := .ok ((true, none), ())

def watchedSensor : Text :=
  codePoints "00000000-0000-0000-0000-0000000000cd"

/-- Every value above zero of one sensor. -/
def watchingRow : Row
  | .enabled => some true
  | .detectionType => some .threshold
  | .sensorId => some watchedSensor
  | .condition => some .greaterThan
  | .threshold => some (0 : UInt64)
  | _ => none

def watchingLoad : LoadEvent (Nat × Row) Unit :=
  .load true fun _ => .ok [(0, watchingRow)]

def watchingWorker : Worker (Nat × Row) :=
  (Worker.start sampleRegistry).load noOther true
    fun _ => .ok [(0, watchingRow)]

def watchingEngine : Engine Unit where
  tenantRules := watchingWorker.tenantRules.getD fun _ => none
  sensorNames _ _ := none
  lastEmit := []
  database := ()

theorem watchingWorker_rules : watchingWorker.tenantRules =
    some (Function.update (fun _ => none) (codePoints sampleTenant)
      (some [(0, watchingRow)])) :=
  (@AlertWorker.load_one _ _ _ (.start sampleRegistry) _ _
    (AlertWorker.sample_loads fun _ => .ok [(0, watchingRow)])
    AlertWorker.sample_listed).1

theorem watchingWorker_loads :
    run (Worker.step noOther plainConfig) (.start sampleRegistry)
        [watchingLoad] = some watchingWorker ∧
      watchingWorker.tenantRules = some watchingEngine.tenantRules := by
  refine ⟨rfl, ?_⟩
  obtain ⟨tenantRules, there⟩ :
      ∃ tenantRules, watchingWorker.tenantRules = some tenantRules :=
    ⟨_, watchingWorker_rules⟩
  rw [watchingEngine, there]
  rfl

theorem watchedSensor_known : hexUuid watchedSensor = some watchedSensor := by
  have small : 0xcd < 2 ^ 128 := by decide
  have own := hexUuid_of_canonical (canonicalCompanyId_uuidText noOther small)
  rwa [show Measurements.uuidText 0xcd =
    "00000000-0000-0000-0000-0000000000cd" from rfl] at own

theorem watchingEngine_keyed :
    Keyed hexPython watchingEngine.tenantRules := by
  intro company rules held
  have sound : AlertWorker.Sound noOther watchingWorker :=
    AlertWorker.load_sound (AlertWorker.start_sound sampleRegistry) _ _
  have holding := sound watchingEngine.tenantRules watchingWorker_loads.2
  obtain ⟨schema, companyId, known, rfl⟩ := holding.keyed company rules held
  exact hexPython_takes schema companyId known

theorem watchingEngine_rules (spelled : Text) :
    watchingEngine.rules (.text spelled) =
      if spelled = codePoints sampleTenant then [(0, watchingRow)]
      else [] := by
  have held : watchingEngine.tenantRules = Function.update (fun _ => none)
      (codePoints sampleTenant) (some [(0, watchingRow)]) := by
    rw [watchingEngine, watchingWorker_rules]
    rfl
  rw [Engine.rules, held, Function.update_apply]
  split
  · rfl
  · rfl

def lowerCase : CompanyId :=
  .text (codePoints "00000000-0000-0000-0000-0000000000ab")

def upperCase : CompanyId :=
  .text (codePoints "00000000-0000-0000-0000-0000000000AB")

theorem cases_apart : lowerCase ≠ upperCase := by
  rw [lowerCase, upperCase, Ne, CompanyId.text.injEq,
    show codePoints "00000000-0000-0000-0000-0000000000ab" = _ from
      codePoints_ofList _,
    show codePoints "00000000-0000-0000-0000-0000000000AB" = _ from
      codePoints_ofList _]
  decide

theorem upperCase_spells :
    hexPython.uuidField lowerCase.value "company_id" true =
        .ok (some (codePoints "00000000-0000-0000-0000-0000000000ab")) ∧
      hexPython.uuidField upperCase.value "company_id" true =
        .ok (some (codePoints "00000000-0000-0000-0000-0000000000ab")) := by
  have taken {text canonical : String} :=
    @hexUuid_of_canonical text canonical
  have small : 0xab < 2 ^ 128 := by decide
  have upper : canonicalCompanyId noOther
      "00000000-0000-0000-0000-0000000000AB" =
        .ok "00000000-0000-0000-0000-0000000000ab" := by
    apply canonicalCompanyId_ok_iff.mpr
    exact ⟨0xab, by decide +kernel, rfl⟩
  have lower := canonicalCompanyId_uuidText noOther small
  rw [show Measurements.uuidText 0xab =
    "00000000-0000-0000-0000-0000000000ab" from rfl] at lower
  rw [← hexPython_uuid] at taken
  exact ⟨uuidField_of_text (codePoints_ne_nil _) (taken lower),
    uuidField_of_text (codePoints_ne_nil _) (taken upper)⟩

def readingOf (sensorId : Text) : List (Text × Value) :=
  [(codePoints "sensor_id", .text sensorId),
    (codePoints "value", .int false ['1'])]

/-- A reading of a sensor that is spelled as a UUID. -/
theorem readingOf_parsed {sensorId canonical : Text} (present : sensorId ≠ [])
    (known : hexUuid sensorId = some canonical) :
    parseReading hexPython (.object (readingOf sensorId)) lowerCase.value =
      .ok ⟨canonical, none, 4607182418800017408, none, none, .null⟩ := by
  have named : get (readingOf sensorId) "sensor_id" = .text sensorId ∧
      get (readingOf sensorId) "equipment_id" = .null ∧
      get (readingOf sensorId) "value" = .int false ['1'] ∧
      get (readingOf sensorId) "time" = .null ∧
      get (readingOf sensorId) "timestamp" = .null ∧
      get (readingOf sensorId) "site_id" = .null := by
    exact ⟨rfl, rfl, rfl, rfl, rfl, rfl⟩
  obtain ⟨sensor, equipment, value, time, timestamp, site⟩ := named
  have company := upperCase_spells.1
  have read : hexPython.uuidField (.text sensorId) "sensor_id" true =
      .ok (some canonical) :=
    uuidField_of_text present known
  simp only [parseReading, sensor, equipment, value, time, timestamp, site,
    company, read, bind, Except.bind]
  rfl

theorem Respelled.refl (python : Python) (fields : List (Text × Value)) :
    Respelled python fields fields :=
  ⟨rfl, rfl, fun _ _ => rfl⟩

/-- No rule is applied to a reading that spells its tenant in upper case. -/
theorem upper_case_unevaluated :
    ¬∀ (events : List (LoadEvent (Nat × Row) Unit))
      (worker : Worker (Nat × Row)) (engine : Engine Unit)
      (fields others : List (Text × Value)) (company other : CompanyId)
      (tenant : Text) (reading : Reading),
      run (Worker.step noOther plainConfig) (.start sampleRegistry) events =
        some worker →
      worker.tenantRules = some engine.tenantRules →
      parseReading hexPython (.object fields) company.value = .ok reading →
      hexPython.uuidField company.value "company_id" true =
        .ok (some tenant) →
      hexPython.uuidField other.value "company_id" true =
        .ok (some tenant) →
      Respelled hexPython fields others →
      (evaluate hexSurroundings engine (.object fields) company).1 =
        (evaluate hexSurroundings engine (.object others) other).1 := by
  intro always
  have parsed := readingOf_parsed (codePoints_ne_nil _) watchedSensor_known
  have same := always [watchingLoad] watchingWorker watchingEngine
    (readingOf watchedSensor) (readingOf watchedSensor) lowerCase upperCase _
    _ watchingWorker_loads.1 watchingWorker_loads.2 parsed
    upperCase_spells.1 upperCase_spells.2 (.refl _ _)
  rcases (outcome_iff watchingEngine_keyed hexPython_canonical parsed
    upperCase_spells.1 upperCase_spells.2 (.refl _ _)).mp same with
    alike | ⟨-, unruled⟩
  · exact cases_apart alike
  · have ruled := (unruled none rfl).1 (0, watchingRow)
    rw [lowerCase, watchingEngine_rules, sampleTenant, if_pos rfl] at ruled
    cases ruled List.mem_cons_self

/-- A sensor without rules is evaluated alike. -/
theorem evaluate_respelled_unwatched :
    (evaluate hexSurroundings watchingEngine
        (.object (readingOf (codePoints
          "00000000-0000-0000-0000-0000000000ce"))) lowerCase).1 =
      (evaluate hexSurroundings watchingEngine
        (.object (readingOf (codePoints
          "00000000-0000-0000-0000-0000000000ce"))) upperCase).1 := by
  have small : 0xce < 2 ^ 128 := by decide
  have own := hexUuid_of_canonical (canonicalCompanyId_uuidText noOther small)
  rw [show Measurements.uuidText 0xce =
    "00000000-0000-0000-0000-0000000000ce" from rfl] at own
  have parsed := readingOf_parsed (codePoints_ne_nil _) own
  have quiet (company : CompanyId)
      (listed : company = lowerCase ∨ company = upperCase) :
      Unruled watchingEngine ⟨codePoints
        "00000000-0000-0000-0000-0000000000ce", none, 4607182418800017408,
        none, none, .null⟩ company := by
    intro rule member
    have watching : rule = (0, watchingRow) := by
      rcases listed with rfl | rfl
      · rw [lowerCase, watchingEngine_rules, sampleTenant, if_pos rfl]
          at member
        exact List.mem_singleton.mp member
      · rw [upperCase, watchingEngine_rules] at member
        split at member
        · exact List.mem_singleton.mp member
        · cases member
    subst watching
    have other : watchedSensor ≠
        codePoints "00000000-0000-0000-0000-0000000000ce" := by
      rw [watchedSensor, show codePoints _ = _ from codePoints_ofList _,
        show codePoints _ = _ from codePoints_ofList _]
      decide
    simp only [applicable, matchesTarget, watchingRow, Option.some.injEq,
      other]
    rfl
  apply (evaluate_respelled_iff hexSurroundings noOther plainConfig
    sampleRegistry [watchingLoad] watchingWorker watchingEngine _ _
    lowerCase upperCase _ _ hexPython_takes hexPython_canonical
    watchingWorker_loads.1 watchingWorker_loads.2 parsed
    upperCase_spells.1 upperCase_spells.2 (.refl _ _)).mpr
  refine .inr ⟨?_, fun _ _ => ⟨quiet _ (.inl rfl), quiet _ (.inr rfl)⟩⟩
  rw [storedName_unequipped rfl, storedName_unequipped rfl]

end IndustryFlow.AlertRules
