import IndustryFlow.Alerts.Handling
import IndustryFlow.Concurrent.Run
import IndustryFlow.Tenancy.Names
import Mathlib.Logic.Function.Basic

/-!
# Loading the rules

The worker loads the rules of every tenant that is active in the registry, at
its start and then periodically, and evaluates each reading against the rules
that the last load has left.  A tenant whose rules cannot be read is left with
none, so its readings are reported as handled without an evaluation.
-/

namespace IndustryFlow.AlertWorker

open Concurrent
open JsonText (Text Value)
open Tenancy.Names (SchemaError companyIdFromSchema prefixText)

/-! ## The registry -/

/-- A row of `public.companies`, and whether its schema exists. -/
structure RegistryRow where
  schemaName : String
  isActive : Bool
  schemaExists : Bool

/-- `TENANT_SCHEMAS_SELECT`; the order is left out. -/
def tenantSchemasSelect (registry : List RegistryRow) : List String :=
  (registry.filter fun row => row.isActive && row.schemaExists &&
    prefixText.toList.isPrefixOf row.schemaName.toList).map
      RegistryRow.schemaName

theorem tenantSchemasSelect_one {schema : String}
    (named : prefixText.toList.isPrefixOf schema.toList = true) :
    tenantSchemasSelect [⟨schema, true, true⟩] = [schema] := by
  simp [tenantSchemasSelect, named]

section Loader

variable (other : List Char → Option Int)

/-- The company is active in the registry. -/
def ActiveIn (registry : List RegistryRow) (company : Text) : Prop :=
  ∃ row ∈ registry, row.isActive = true ∧ ∃ companyId,
    companyIdFromSchema other row.schemaName = .ok companyId ∧
      codePoints companyId = company

/-- The loop of `get_tenant_schemas`. -/
def tenantSchemas : List String → Except SchemaError (List String)
  | [] => .ok []
  | name :: names =>
      match companyIdFromSchema other name with
      | .ok _ => (tenantSchemas names).map (name :: ·)
      | .error error =>
          if error.isValueError then tenantSchemas names else .error error

/-- The rules of the tenants, under their ids. -/
abbrev Rules (Rule : Type) := Text → Option (List Rule)

variable {Rule : Type}

/-- The loop of `load_all_tenant_rules`; `active` is `get_active_rules`. -/
def loadRules (active : Text → Except Unit (List Rule)) :
    List String → Rules Rule → Except SchemaError (Rules Rule)
  | [], allRules => .ok allRules
  | schema :: schemas, allRules => do
      let companyId ← companyIdFromSchema other schema
      let company := codePoints companyId
      let rules := match active company with
        | .ok rules => rules
        | .error () => []
      loadRules active schemas (Function.update allRules company (some rules))

/-- `load_all_tenant_rules`, of the rows of the first query. -/
def loadAllTenantRules (active : Text → Except Unit (List Rule))
    (rows : List String) : Except SchemaError (Rules Rule) := do
  let schemas ← tenantSchemas other rows
  loadRules other active schemas fun _ => none

/-- The ids of the tenants that a load goes through. -/
def listed (rows : List String) : List Text :=
  rows.filterMap fun name =>
    match companyIdFromSchema other name with
    | .ok companyId => some (codePoints companyId)
    | .error _ => none

end Loader

/-! ## The worker -/

/-- The code does not read `lastRules` and `fresh`. -/
structure Worker (Rule : Type) where
  registry : List RegistryRow
  /-- `rules_engine.tenant_rules`, once there is an engine. -/
  tenantRules : Option (Rules Rule)
  stopped : Bool
  /-- What reading the rules of a tenant has last given. -/
  lastRules : Rules Rule
  /-- The tenants whose rules the last load has read. -/
  fresh : Text → Bool

def Worker.start {Rule : Type} (registry : List RegistryRow) : Worker Rule where
  registry := registry
  tenantRules := none
  stopped := false
  lastRules _ := none
  fresh _ := false

section

variable {Rule Alert : Type}

/-- `self.tenant_rules.get(company_id, [])`. -/
def tenantRulesGet (tenantRules : Rules Rule) :
    Value → Except Own (List Rule)
  | .text company => .ok ((tenantRules company).getD [])
  | .array _ => .error (.other "unhashable type: 'list'")
  | .object _ => .error (.other "unhashable type: 'dict'")
  | .null | .bool _ | .int _ _ | .real _ => .ok []

/-- The attempts at a record, with the rules that the worker holds. -/
def withRules (tenantRules : Rules Rule)
    (world : Nat → Attempt Rule Alert) (index : Nat) : Attempt Rule Alert :=
  { world index with rules := tenantRulesGet tenantRules }

inductive LoadEvent (Rule Alert : Type) where
  /-- The registry changes. -/
  | registry (rows : List RegistryRow)
  /-- `_load_rules`; whether the first query answers, and the rules. -/
  | load (answers : Bool) (active : Text → Except Unit (List Rule))
  | record (raw : Option ByteArray) (world : Nat → Attempt Rule Alert)
      (send : String → Bool)

variable (other : List Char → Option Int) (config : Config)

/-- What `_load_rules` leaves; an exception of the first load ends the
worker, and one of a later load is logged. -/
def Worker.load (worker : Worker Rule) (answers : Bool)
    (active : Text → Except Unit (List Rule)) : Worker Rule :=
  let rows := tenantSchemasSelect worker.registry
  let failed := { worker with stopped := worker.tenantRules.isNone }
  if answers then
    match loadAllTenantRules other active rows with
    | .error _ => failed
    | .ok tenantRules =>
        { worker with
          tenantRules := some tenantRules
          lastRules := fun company =>
            match active company with
            | .ok rules =>
                if company ∈ listed other rows then some rules
                else worker.lastRules company
            | .error _ => worker.lastRules company
          fresh := fun company =>
            company ∈ listed other rows && (active company).isOk }
  else failed

def Worker.step (worker : Worker Rule) :
    LoadEvent Rule Alert → Option (Worker Rule)
  | .registry rows => some { worker with registry := rows }
  | .load answers active =>
      if worker.stopped then none else some (worker.load other answers active)
  | .record raw world send =>
      match worker.stopped, worker.tenantRules with
      | false, some tenantRules =>
          match handleMessage config (withRules tenantRules world) send raw
            with
          | .ok _ => some worker
          -- an exception that the loop does not catch
          | .error _ => some { worker with stopped := true }
      | _, _ => none

/-! ## The law -/

/-- The tenant of a reading. -/
def tenantOf (fields : List (Text × Value)) : Option Text :=
  ((config.python.uuidField (get fields "company_id") "company_id"
    true).toOption).join

/-- The record is reported as handled, and not as a dead letter. -/
def Reports (tenantRules : Rules Rule) (raw : Option ByteArray)
    (world : Nat → Attempt Rule Alert) (send : String → Bool) : Prop :=
  handleMessage config (withRules tenantRules world) send raw =
    .ok ⟨.handled, none⟩

/-- Every reading of an active tenant that is reported as handled was
evaluated against the rules that were last read for the tenant. -/
def Lawful (worker : Worker Rule) : LoadEvent Rule Alert → Prop
  | .record raw world send =>
      ∀ tenantRules ∈ worker.tenantRules, ∀ fields,
        decodeMessage config raw = .ok fields →
        Reports config tenantRules raw world send →
        ∃ tenant, tenantOf config fields = some tenant ∧
          (ActiveIn other worker.registry tenant →
            ∃ rules, worker.lastRules tenant = some rules ∧
              tenantRulesGet tenantRules (get fields "company_id") =
                .ok rules)
  | _ => True

/-- The last load has read the rules of the tenant, and the reading spells the
tenant as the loader does; or the tenant had no rules when they were last
read. -/
def Informed (worker : Worker Rule) : LoadEvent Rule Alert → Prop
  | .record raw world send =>
      ∀ tenantRules ∈ worker.tenantRules, ∀ fields,
        decodeMessage config raw = .ok fields →
        Reports config tenantRules raw world send →
        ∀ tenant, tenantOf config fields = some tenant →
          ActiveIn other worker.registry tenant →
          worker.lastRules tenant = some [] ∨
            (worker.fresh tenant = true ∧
              get fields "company_id" = .text tenant)
  | _ => True

end

/-! ## What a load leaves -/

section

variable {other : List Char → Option Int} {Rule Alert : Type}
variable {active : Text → Except Unit (List Rule)}

theorem listed_cons_ok {name companyId : String} {names : List String}
    (known : companyIdFromSchema other name = .ok companyId) :
    listed other (name :: names) =
      codePoints companyId :: listed other names := by
  unfold listed
  rw [List.filterMap_cons, known]

theorem listed_cons_error {name : String} {names : List String}
    {error : SchemaError}
    (refused : companyIdFromSchema other name = .error error) :
    listed other (name :: names) = listed other names := by
  unfold listed
  rw [List.filterMap_cons, refused]

theorem tenantSchemas_listed {rows schemas : List String}
    (confirmed : tenantSchemas other rows = .ok schemas) :
    listed other schemas = listed other rows := by
  induction rows generalizing schemas with
  | nil =>
      cases confirmed
      rfl
  | cons name names induction =>
      simp only [tenantSchemas] at confirmed
      split at confirmed
      · rename_i companyId known
        cases rest : tenantSchemas other names with
        | error error =>
            rw [rest] at confirmed
            cases confirmed
        | ok schemas =>
            rw [rest] at confirmed
            cases confirmed
            rw [listed_cons_ok known, listed_cons_ok known, induction rest]
      · rename_i error refused
        rw [Tenancy.Names.companyIdFromSchema_error refused] at confirmed
        rw [listed_cons_error refused]
        exact induction confirmed

/-- A tenant that the load goes through has the rules that were read, or none
if they could not be read. -/
theorem loadRules_eq {schemas : List String} {before after : Rules Rule}
    (loaded : loadRules other active schemas before = .ok after)
    (company : Text) :
    after company = if company ∈ listed other schemas then
      some ((active company).toOption.getD []) else before company := by
  induction schemas generalizing before with
  | nil =>
      cases loaded
      rfl
  | cons schema schemas induction =>
      obtain ⟨companyId, known, rest⟩ := bind_ok_iff.mp loaded
      rw [induction rest, listed_cons_ok known]
      by_cases own : company = codePoints companyId
      · subst own
        rw [if_pos List.mem_cons_self, Function.update_self]
        cases read : active (codePoints companyId) with
        | error _ => simp [Except.toOption]
        | ok rules => simp [Except.toOption]
      · rw [Function.update_of_ne own]
        simp [own]

theorem loadAllTenantRules_eq {rows : List String} {after : Rules Rule}
    (loaded : loadAllTenantRules other active rows = .ok after)
    (company : Text) :
    after company = if company ∈ listed other rows then
      some ((active company).toOption.getD []) else none := by
  obtain ⟨schemas, confirmed, rest⟩ := bind_ok_iff.mp loaded
  rw [loadRules_eq rest, tenantSchemas_listed confirmed]

theorem loadAllTenantRules_one {schema companyId : String}
    (known : companyIdFromSchema other schema = .ok companyId) :
    loadAllTenantRules other active [schema] =
      .ok (Function.update (fun _ => none) (codePoints companyId)
        (some (match active (codePoints companyId) with
          | .ok rules => rules
          | .error () => []))) := by
  simp only [loadAllTenantRules, tenantSchemas, known, Except.map, loadRules,
    bind, Except.bind]

theorem listed_known {rows : List String} {company : Text}
    (member : company ∈ listed other rows) :
    ∃ schema companyId, companyIdFromSchema other schema = .ok companyId ∧
      codePoints companyId = company := by
  obtain ⟨schema, -, found⟩ := List.mem_filterMap.mp member
  split at found
  · rename_i companyId known
    exact ⟨schema, companyId, known, Option.some.inj found⟩
  · cases found

/-- The rules the worker holds of a tenant: those last read if the last load
has read them, and otherwise none. -/
structure Holding (other : List Char → Option Int) (worker : Worker Rule)
    (tenantRules : Rules Rule) : Prop where
  read : ∀ company, worker.fresh company = true →
    ∃ rules, tenantRules company = some rules ∧
      worker.lastRules company = some rules
  unread : ∀ company, worker.fresh company = false →
    (tenantRules company).getD [] = []
  keyed : ∀ company rules, tenantRules company = some rules →
    ∃ schema companyId, companyIdFromSchema other schema = .ok companyId ∧
      codePoints companyId = company

def Sound (other : List Char → Option Int) (worker : Worker Rule) : Prop :=
  ∀ tenantRules ∈ worker.tenantRules, Holding other worker tenantRules

theorem load_sound {worker : Worker Rule} (sound : Sound other worker)
    (answers : Bool) (active : Text → Except Unit (List Rule)) :
    Sound other (worker.load other answers active) := by
  have failed : Sound other
      { worker with stopped := worker.tenantRules.isNone } := by
    intro tenantRules there
    obtain ⟨read, unread, keyed⟩ := sound tenantRules there
    exact ⟨read, unread, keyed⟩
  unfold Worker.load
  cases answers with
  | false => exact failed
  | true =>
      cases loaded : loadAllTenantRules other active
          (tenantSchemasSelect worker.registry) with
      | error error => simpa [loaded] using failed
      | ok after =>
          have held := loadAllTenantRules_eq loaded
          simp only [loaded, if_true]
          rintro tenantRules ⟨⟩
          constructor
          · intro company fresh
            obtain ⟨through, read⟩ := Bool.and_eq_true_iff.mp fresh
            have member := of_decide_eq_true through
            obtain ⟨rules, given⟩ := exists_ok read
            refine ⟨rules, ?_, ?_⟩
            · rw [held, if_pos member, given]
              rfl
            · simp only [given, if_pos member]
          · intro company stale
            rw [held]
            by_cases member : company ∈ listed other
                (tenantSchemasSelect worker.registry)
            · cases given : active company with
              | error _ => simp [member, Except.toOption]
              | ok rules =>
                  simp [member, given, Except.isOk, Except.toBool] at stale
            · simp [member]
          · intro company rules there
            rw [held] at there
            split at there
            · rename_i member
              exact listed_known member
            · cases there

/-- What a load leaves of the only tenant that it goes through. -/
theorem load_one {worker : Worker Rule} {company : Text}
    {tenantRules : Rules Rule}
    (loaded : loadAllTenantRules other active
      (tenantSchemasSelect worker.registry) = .ok tenantRules)
    (through : listed other (tenantSchemasSelect worker.registry) =
      [company]) :
    (worker.load other true active).tenantRules = some tenantRules ∧
      (worker.load other true active).lastRules company =
        (match active company with
        | .ok rules => some rules
        | .error _ => worker.lastRules company) ∧
      (worker.load other true active).fresh company =
        (active company).isOk ∧
      (worker.load other true active).stopped = worker.stopped := by
  simp [Worker.load, loaded, through]

theorem step_sound {config : Config} {worker next : Worker Rule}
    {event : LoadEvent Rule Alert} (sound : Sound other worker)
    (taken : worker.step other config event = some next) :
    Sound other next := by
  have same {changed : Worker Rule}
      (rules : changed.tenantRules = worker.tenantRules)
      (last : changed.lastRules = worker.lastRules)
      (fresh : changed.fresh = worker.fresh) : Sound other changed := by
    intro tenantRules there
    rw [rules] at there
    obtain ⟨read, unread, keyed⟩ := sound tenantRules there
    exact ⟨by rwa [fresh, last], by rwa [fresh], keyed⟩
  cases event with
  | registry rows =>
      cases taken
      exact same rfl rfl rfl
  | load answers active =>
      simp only [Worker.step] at taken
      split at taken
      · cases taken
      · cases taken
        exact load_sound sound answers active
  | record raw world send =>
      simp only [Worker.step] at taken
      split at taken
      · split at taken
        · cases taken
          exact sound
        · cases taken
          exact same rfl rfl rfl
      · cases taken

/-! ## What an evaluation has read -/

theorem attempts_reported {config : Config} {world : Nat → Attempt Rule Alert}
    {send : String → Bool} {fields : List (Text × Value)}
    {left index : Nat} {error : String}
    (reported : attempts config world send fields left index error =
      ⟨.handled, none⟩) :
    ∃ index, processMessage config.python (world index) fields = .ok () := by
  induction left generalizing index error with
  | zero => cases congrArg Handled.deadLetter reported
  | succ left induction =>
      rw [attempts] at reported
      split at reported
      · rename_i completed
        exact ⟨index, completed⟩
      · cases congrArg Handled.deadLetter reported
      · split at reported
        · cases congrArg Handled.outcome reported
        · exact induction reported

theorem ofOwn_ok_iff {Answer : Type} {step : Except Own Answer}
    {answer : Answer} : ofOwn step = .ok answer ↔ step = .ok answer :=
  Tenancy.Names.mapError_ok_iff

theorem uuidField_required {python : Python} {raw : Value} {field : String}
    {answer : Option Text}
    (read : python.uuidField raw field true = .ok answer) :
    ∃ canonical, answer = some canonical := by
  unfold Python.uuidField at read
  split at read
  · cases read
  · cases read
  · obtain ⟨text, -, rest⟩ := bind_ok_iff.mp read
    split at rest
    · cases rest
      exact ⟨_, rfl⟩
    · unfold Python.invalid at rest
      split at rest
      · cases rest
      · cases rest

/-- A reading that was evaluated names a tenant, and its rules were looked
up. -/
theorem processMessage_ok {python : Python} {attempt : Attempt Rule Alert}
    {fields : List (Text × Value)}
    (completed : processMessage python attempt fields = .ok ()) :
    (∃ tenant, python.uuidField (get fields "company_id") "company_id" true =
      .ok (some tenant)) ∧
    ∃ rules, attempt.rules (get fields "company_id") = .ok rules := by
  unfold processMessage at completed
  split at completed
  · obtain ⟨reading, parsed, completed⟩ := bind_ok_iff.mp completed
    obtain ⟨-, -, completed⟩ := bind_ok_iff.mp completed
    obtain ⟨rules, looked, -⟩ := bind_ok_iff.mp completed
    refine ⟨?_, rules, ofOwn_ok_iff.mp looked⟩
    obtain ⟨answer, read, -⟩ := bind_ok_iff.mp (ofOwn_ok_iff.mp parsed)
    obtain ⟨tenant, rfl⟩ := uuidField_required read
    exact ⟨tenant, read⟩
  · cases completed

/-- The tenant of a reading whose company id is a text. -/
theorem uuidField_text {python : Python} {company tenant : Text}
    {field : String}
    (read : python.uuidField (.text company) field true =
      .ok (some tenant)) : python.uuid company = some tenant := by
  unfold Python.uuidField at read
  split at read
  · cases read
  · cases read
  · obtain ⟨text, shown, rest⟩ := bind_ok_iff.mp read
    cases shown
    split at rest
    · rename_i canonical same
      cases rest
      exact same
    · unfold Python.invalid at rest
      split at rest
      · cases rest
      · cases rest

theorem uuidField_of_text {python : Python} {spelled canonical : Text}
    {field : String} {required : Bool} (present : spelled ≠ [])
    (known : python.uuid spelled = some canonical) :
    python.uuidField (.text spelled) field required =
      .ok (some canonical) := by
  obtain ⟨head, tail, rfl⟩ := List.exists_cons_of_ne_nil present
  simp only [Python.uuidField, Python.str, bind, Except.bind, known]

/-- `uuid.UUID` takes the id of a tenant as the loader writes it. -/
def TakesTenants (other : List Char → Option Int) (python : Python) : Prop :=
  ∀ schema companyId, companyIdFromSchema other schema = .ok companyId →
    python.uuid (codePoints companyId) = some (codePoints companyId)

theorem informed_iff {config : Config} {worker : Worker Rule}
    {tenantRules : Rules Rule} {companyId : Value} {tenant : Text}
    {used : List Rule} (takes : TakesTenants other config.python)
    (holding : Holding other worker tenantRules)
    (named : config.python.uuidField companyId "company_id" true =
      .ok (some tenant))
    (looked : tenantRulesGet tenantRules companyId = .ok used) :
    (∃ rules, worker.lastRules tenant = some rules ∧
      tenantRulesGet tenantRules companyId = .ok rules) ↔
    worker.lastRules tenant = some [] ∨
      (worker.fresh tenant = true ∧ companyId = .text tenant) := by
  have exact : (∃ rules, worker.lastRules tenant = some rules ∧
      tenantRulesGet tenantRules companyId = .ok rules) ↔
      worker.lastRules tenant = some used := by
    rw [looked]
    constructor
    · rintro ⟨rules, last, same⟩
      rw [last, Except.ok.inj same]
    · exact fun last => ⟨used, last, rfl⟩
  rw [exact]
  by_cases spelled : companyId = .text tenant
  · subst spelled
    have same : (tenantRules tenant).getD [] = used := Except.ok.inj looked
    cases fresh : worker.fresh tenant with
    | true =>
        obtain ⟨rules, held, last⟩ := holding.read tenant fresh
        rw [held] at same
        cases same
        exact ⟨fun _ => .inr ⟨rfl, rfl⟩, fun _ => last⟩
    | false =>
        rw [holding.unread tenant fresh] at same
        cases same
        exact ⟨.inl, fun given => given.resolve_right (by simp)⟩
  · have quiet : used = [] := by
      cases companyId with
      | text company =>
          have same : (tenantRules company).getD [] = used :=
            Except.ok.inj looked
          cases held : tenantRules company with
          | none =>
              rw [held] at same
              exact same.symm
          | some rules =>
              obtain ⟨schema, text, known, rfl⟩ :=
                holding.keyed company rules held
              have own := uuidField_text named
              rw [takes schema text known] at own
              exact absurd (congrArg Value.text (Option.some.inj own)) spelled
      | array _ => cases looked
      | object _ => cases looked
      | _ => exact (Except.ok.inj looked).symm
    subst quiet
    exact ⟨.inl, fun given => given.resolve_right fun both => spelled both.2⟩

theorem lawful_iff {config : Config} {worker : Worker Rule}
    {event : LoadEvent Rule Alert} (takes : TakesTenants other config.python)
    (sound : Sound other worker) :
    Lawful other config worker event ↔ Informed other config worker event := by
  cases event with
  | registry rows => exact Iff.rfl
  | load answers active => exact Iff.rfl
  | record raw world send =>
      have evaluated {tenantRules : Rules Rule} {fields : List (Text × Value)}
          (decoded : decodeMessage config raw = .ok fields)
          (reports : Reports config tenantRules raw world send) :
          (∃ tenant, config.python.uuidField (get fields "company_id")
            "company_id" true = .ok (some tenant)) ∧
          ∃ rules, tenantRulesGet tenantRules (get fields "company_id") =
            .ok rules := by
        unfold Reports handleMessage at reports
        rw [decoded] at reports
        obtain ⟨index, completed⟩ :=
          attempts_reported (Except.ok.inj reports)
        exact processMessage_ok completed
      constructor
      · intro lawful tenantRules there fields decoded reports tenant named
          active
        obtain ⟨⟨found, read⟩, used, looked⟩ := evaluated decoded reports
        obtain ⟨own, same, answers⟩ :=
          lawful tenantRules there fields decoded reports
        rw [named] at same
        cases same
        have tenant : tenantOf config fields = some found := by
          rw [tenantOf, read]
          rfl
        rw [tenant] at named
        cases named
        exact (informed_iff takes (sound tenantRules there) read looked).mp
          (answers active)
      · intro informed tenantRules there fields decoded reports
        obtain ⟨⟨tenant, read⟩, used, looked⟩ := evaluated decoded reports
        have named : tenantOf config fields = some tenant := by
          rw [tenantOf, read]
          rfl
        refine ⟨tenant, named, fun active => ?_⟩
        exact (informed_iff takes (sound tenantRules there) read looked).mpr
          (informed tenantRules there fields decoded reports tenant named
            active)

theorem start_sound (registry : List RegistryRow) :
    Sound other (Worker.start registry : Worker Rule) :=
  nofun

/-- Along every run of loads and readings, the readings of active tenants that
are reported as handled were evaluated against the rules last read exactly
where the last load had read them and the reading spells its tenant as the
loader does, or there were none. -/
theorem readings_lawful_iff (other : List Char → Option Int) (config : Config)
    (registry : List RegistryRow) (events : List (LoadEvent Rule Alert))
    (takes : TakesTenants other config.python) :
    Along (Worker.step other config) (Lawful other config) (.start registry)
        events ↔
      Along (Worker.step other config) (Informed other config)
        (.start registry) events := by
  have preserved (worker : Worker Rule) (event : LoadEvent Rule Alert)
      (next : Worker Rule) : Sound other worker →
      Worker.step other config worker event = some next →
        Sound other next :=
    step_sound
  have same (worker : Worker Rule) (event : LoadEvent Rule Alert) :
      Sound other worker → (Lawful other config worker event ↔
        Informed other config worker event) :=
    lawful_iff takes
  exact Along.congr preserved same (start_sound registry) events

end

/-! ## A load that fails -/

def noOther : List Char → Option Int := fun _ => none

def sampleTenant : String := "00000000-0000-0000-0000-0000000000ab"

def sampleRegistry : List RegistryRow :=
  [⟨"tenant_00000000_0000_0000_0000_0000000000ab", true, true⟩]

def plainPython : Python where
  limits := ⟨4300, fun containers => 1000 < containers.length⟩
  repr _ := none
  uuid := some
  floatOfText _ := none
  floatOfInt _ _ := some 4607182418800017408
  floatOfReal _ := 0
  fromIsoformat _ := none
  astimezone _ := none

def plainConfig : Config :=
  { sampleConfig with python := plainPython }

def sampleText : String :=
  "\x7b\"company_id\": \"00000000-0000-0000-0000-0000000000ab\", " ++
    "\"sensor_id\": \"00000000-0000-0000-0000-0000000000cd\", " ++
    "\"value\": 1\x7d"

theorem decodeMessage_object {config : Config} {text : String}
    {fields : List (Text × Value)}
    (loaded : JsonText.loads config.python.limits text =
      .ok (.object fields)) :
    decodeMessage config (some text.toUTF8) = .ok fields := by
  simp only [decodeMessage, fromUTF8?_toUTF8, loaded]

theorem handleMessage_completed {config : Config}
    {world : Nat → Attempt Rule Alert} {send : String → Bool}
    {raw : Option ByteArray} {fields : List (Text × Value)}
    (decoded : decodeMessage config raw = .ok fields)
    (completed : processMessage config.python (world 0) fields = .ok ()) :
    handleMessage config world send raw = .ok ⟨.handled, none⟩ := by
  obtain ⟨left, counted⟩ : ∃ left, max 1 config.maxRetries = left + 1 :=
    Nat.exists_eq_add_of_le' (Nat.le_max_left 1 _)
  simp only [handleMessage, decoded, counted, attempts, completed]

/-- The sample is an object that names its tenant and is a reading. -/
def sampleReads : Bool :=
  match JsonText.loads plainPython.limits sampleText with
  | .ok (.object fields) =>
      (match get fields "company_id" with
      | .text company => decide (company = codePoints sampleTenant)
      | _ => false) &&
      (parseReading plainPython (.object fields)
        (.text (codePoints sampleTenant))).isOk
  | _ => false

theorem sampleText_read : ∃ fields,
    decodeMessage plainConfig (some sampleText.toUTF8) = .ok fields ∧
      get fields "company_id" = .text (codePoints sampleTenant) ∧
      ∀ tenantRules : Rules Unit, processMessage plainPython
        (withRules tenantRules (fun _ => quietAttempt) 0) fields = .ok () := by
  have read : sampleReads = true := by
    have joined {first second third : List Char} :
        (String.ofList first ++ String.ofList second ++
          String.ofList third).toList = first ++ second ++ third := by
      simp only [String.toList_append, String.toList_ofList]
    rw [sampleReads, JsonText.loads, show sampleText.toList = _ from joined,
      show codePoints sampleTenant = _ from codePoints_ofList _]
    decide +kernel
  unfold sampleReads at read
  split at read
  · rename_i fields loaded
    obtain ⟨named, parses⟩ := Bool.and_eq_true_iff.mp read
    have company : get fields "company_id" =
        .text (codePoints sampleTenant) := by
      split at named
      · rename_i company found
        rw [found, of_decide_eq_true named]
      · cases named
    refine ⟨fields, ?_, company, fun tenantRules => ?_⟩
    · exact decodeMessage_object loaded
    · obtain ⟨reading, parsed⟩ := exists_ok parses
      have present : plainPython.truthy
          (.text (codePoints sampleTenant)) = true := by
        decide +kernel
      unfold processMessage evaluate
      rw [company, if_pos present, parsed]
      have quiet : ((tenantRules (codePoints sampleTenant)).getD []).filter
          ((quietAttempt).applicable reading) = [] := by
        exact List.filter_eq_nil_iff.mpr fun _ _ => Bool.false_ne_true
      change evaluateRules _ reading (List.filter _ _) = _
      rw [show (withRules tenantRules (fun _ => quietAttempt) 0).applicable =
        quietAttempt.applicable from rfl, quiet]
      rfl
  · cases read

def sampleRecord : LoadEvent Unit Unit :=
  .record (some sampleText.toUTF8) (fun _ => quietAttempt) fun _ => true

theorem sampleText_reports (tenantRules : Rules Unit) :
    Reports plainConfig tenantRules (some sampleText.toUTF8)
      (fun _ => quietAttempt) fun _ => true := by
  obtain ⟨fields, decoded, -, completed⟩ := sampleText_read
  exact handleMessage_completed decoded (completed tenantRules)

theorem sample_takes : TakesTenants noOther plainConfig.python :=
  fun _ _ _ => rfl

/-- What the registry lists is the schema of the tenant. -/
theorem sample_known : companyIdFromSchema noOther
    "tenant_00000000_0000_0000_0000_0000000000ab" = .ok sampleTenant :=
  Tenancy.Names.companyIdFromSchema_text noOther
    (by decide : 0xab < 2 ^ 128)

theorem sample_selected : tenantSchemasSelect sampleRegistry =
    ["tenant_00000000_0000_0000_0000_0000000000ab"] := by
  have front : prefixText.toList.isPrefixOf
      "tenant_00000000_0000_0000_0000_0000000000ab".toList = true := by
    rw [prefixText, show ("tenant_" : String).toList = _ from
        String.toList_ofList,
      show ("tenant_00000000_0000_0000_0000_0000000000ab" : String).toList =
        _ from String.toList_ofList]
    decide
  exact tenantSchemasSelect_one front

theorem sample_listed : listed noOther (tenantSchemasSelect sampleRegistry) =
    [codePoints sampleTenant] := by
  rw [sample_selected, listed_cons_ok sample_known]
  rfl

/-- A load of the tenant's rules. -/
theorem sample_loads {Rule : Type}
    (active : Text → Except Unit (List Rule)) :
    loadAllTenantRules noOther active (tenantSchemasSelect sampleRegistry) =
      .ok (Function.update (fun _ => none) (codePoints sampleTenant)
        (some (match active (codePoints sampleTenant) with
          | .ok rules => rules
          | .error () => []))) := by
  rw [sample_selected]
  exact loadAllTenantRules_one sample_known

theorem sample_active : ActiveIn noOther sampleRegistry
    (codePoints sampleTenant) :=
  ⟨_, List.mem_singleton_self _, rfl, sampleTenant, sample_known, rfl⟩

/-- The rules of the tenant are read, and cannot be read the next time. -/
def failingLoad : List (LoadEvent Unit Unit) :=
  [.load true fun _ => .ok [()], .load true fun _ => .error (), sampleRecord]

/-- A reading is reported as handled although its tenant has a rule that it
was not evaluated against. -/
theorem reading_unevaluated :
    ¬∀ (other : List Char → Option Int) (config : Config)
      (registry : List RegistryRow) (events : List (LoadEvent Unit Unit)),
      TakesTenants other config.python →
      Along (Worker.step other config) (Lawful other config)
        (.start registry) events := by
  intro always
  let first := (Worker.start sampleRegistry).load noOther true
    fun _ => .ok [()]
  let second := first.load noOther true fun _ => .error ()
  have opening := @load_one _ _ _ (.start sampleRegistry) _ _
    (sample_loads fun _ => .ok [()]) sample_listed
  have registry : first.registry = sampleRegistry := by
    simp only [first, Worker.load, sample_loads, Worker.start, if_true]
  have reopening := @load_one _ _ _ first _ _
    (registry.symm ▸ sample_loads fun _ => .error ())
    (registry.symm ▸ sample_listed)
  have going : first.stopped = false := opening.2.2.2
  have last : second.lastRules (codePoints sampleTenant) = some [()] ∧
      second.fresh (codePoints sampleTenant) = false ∧
      second.tenantRules.isSome = true :=
    ⟨reopening.2.1.trans opening.2.1, reopening.2.2.1,
      Option.isSome_iff_exists.mpr ⟨_, reopening.1⟩⟩
  have along := always noOther plainConfig sampleRegistry failingLoad
    sample_takes
  have taken : Worker.step noOther plainConfig first
      (.load true fun _ => .error () : LoadEvent Unit Unit) =
        some second := by
    simp only [Worker.step, going]
    rfl
  have sound : Sound noOther second :=
    load_sound (load_sound (start_sound _) _ _) _ _
  have informed : Informed noOther plainConfig second sampleRecord :=
    (lawful_iff sample_takes sound).mp ((along.2 first rfl).2 second taken).1
  obtain ⟨tenantRules, there⟩ := Option.isSome_iff_exists.mp last.2.2
  obtain ⟨fields, decoded, named, -⟩ := sampleText_read
  have tenant : tenantOf plainConfig fields =
      some (codePoints sampleTenant) := by
    rw [tenantOf, named]
    rfl
  rcases informed tenantRules there fields decoded
    (sampleText_reports tenantRules) _ tenant sample_active with
    empty | ⟨fresh, -⟩
  · rw [last.1] at empty
    cases empty
  · rw [last.2.1] at fresh
    cases fresh

/-- A reading after a load that has read the rules. -/
theorem readings_lawful_after_load :
    Along (Worker.step noOther plainConfig) (Lawful noOther plainConfig)
      (.start sampleRegistry)
      [.load true fun _ => .ok [()], sampleRecord] := by
  apply (readings_lawful_iff noOther plainConfig sampleRegistry _
    sample_takes).mpr
  refine ⟨trivial, fun worker taken => ⟨?_, fun _ _ => trivial⟩⟩
  obtain rfl := Option.some.inj taken
  intro tenantRules there fields decoded reports tenant named active
  obtain ⟨known, same, company, -⟩ := sampleText_read
  cases decoded.symm.trans same
  refine .inr ?_
  have own : tenantOf plainConfig fields =
      some (codePoints sampleTenant) := by
    rw [tenantOf, company]
    rfl
  rw [named] at own
  cases own
  exact ⟨(@load_one _ _ _ (.start sampleRegistry) _ _
    (sample_loads fun _ => .ok [()]) sample_listed).2.2.1, company⟩

end IndustryFlow.AlertWorker
