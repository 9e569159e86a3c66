import IndustryFlow.Aggregations.Job

/-!
# Aggregates and the spelling of identifiers

A summary is meant for a window and three UUIDs, but readings are grouped by
the spellings.  Where two readings of a window spell the same identifiers
differently, their summaries collide in the table: in one statement the
statement is refused, in two the later replaces the earlier.  Otherwise the
job leaves what is meant, which no spelling changes.
-/

namespace IndustryFlow.Aggregations

open Measurements

/-! ## What is meant -/

/-- The identifiers of a key as the database has them. -/
structure Place where
  schema : String
  sensorId : String
  equipmentId : String
deriving DecidableEq

def placeOf (runtime : Runtime) (key : Key) : Except Raised Place := do
  let schema ← schemaName runtime.otherInt key.companyId
  let sensorId ← canonicalUuid runtime.otherInt key.sensorId
  let equipmentId ← canonicalUuid runtime.otherInt key.equipmentId
  pure ⟨schema, sensorId, equipmentId⟩

/-- The tenant is registered as active, and knows the sensor and the
equipment. -/
def known (database : Database) (place : Place) : Bool :=
  database.registry place.schema = some true &&
    database.hasMeasurements place.schema &&
    database.hasSensor place.schema place.sensorId &&
    database.hasEquipment place.schema place.equipmentId

def Place.at (place : Place) (time : Int) : ConflictKey :=
  ⟨place.schema, time, place.sensorId, place.equipmentId⟩

def ConflictKey.place (key : ConflictKey) : Place :=
  ⟨key.schema, key.sensorId, key.equipmentId⟩

/-- The values of all the accepted readings of a key of the table. -/
def meant (runtime : Runtime) (granularity : Granularity)
    (rows : List Measurement) (key : ConflictKey) : List UInt64 :=
  (rows.filter fun row =>
    granularity.windowEnd row.time = key.time ∧
      placeOf runtime row.key = .ok key.place).map Measurement.value

/-- One row for each key that has accepted readings and is known. -/
def expected (runtime : Runtime) (engine : Engine) (database : Database)
    (granularity : Granularity) (readings : List Reading)
    (tables : Tables) : Tables := fun key =>
  let values := meant runtime granularity (validRows runtime readings) key
  if values ≠ [] ∧ known database key.place then some (engine.stats values)
  else tables key

/-- The batch succeeds, leaves the tables as they are meant, and proposes no
key twice in a statement. -/
structure Faithful (runtime : Runtime) (engine : Engine)
    (database : Database) (granularity : Granularity)
    (readings : List Reading) (tables : Tables) (outcome : Outcome) :
    Prop where
  succeeds : outcome.raised = none
  tables : outcome.tables =
    expected runtime engine database granularity readings tables
  distinct : ∀ statement ∈ outcome.statements, statement.Nodup

/-! ## The condition -/

/-- The identifiers are UUIDs to the driver too, and it can represent the end
of the window. -/
structure Readable (runtime : Runtime) (granularity : Granularity)
    (row : Measurement) : Prop where
  company : ¬EndsInLineTerminator row.companyId
  sensor : ¬EndsInLineTerminator row.sensorId
  equipment : ¬EndsInLineTerminator row.equipmentId
  early : runtime.earliest ≤ granularity.windowEnd row.time
  late : granularity.windowEnd row.time ≤ runtime.latest

/-- Accepted readings of one window that name one known place spell it
alike. -/
def Uniform (runtime : Runtime) (database : Database)
    (granularity : Granularity) (readings : List Reading) : Prop :=
  ∀ first ∈ validRows runtime readings,
    ∀ second ∈ validRows runtime readings, ∀ place,
      granularity.windowEnd first.time = granularity.windowEnd second.time →
      placeOf runtime first.key = .ok place →
      placeOf runtime second.key = .ok place →
      known database place = true → first.key = second.key

/-! ## One tenant -/

theorem placeOf_ok_iff {runtime : Runtime} {key : Key} {place : Place} :
    placeOf runtime key = .ok place ↔
      schemaName runtime.otherInt key.companyId = .ok place.schema ∧
        canonicalUuid runtime.otherInt key.sensorId = .ok place.sensorId ∧
        canonicalUuid runtime.otherInt key.equipmentId =
          .ok place.equipmentId := by
  unfold placeOf
  simp only [bind_ok_iff]
  constructor
  · rintro ⟨schema, named, sensorId, sensor, equipmentId, equipment, same⟩
    cases same
    exact ⟨named, sensor, equipment⟩
  · rintro ⟨named, sensor, equipment⟩
    exact ⟨_, named, _, sensor, _, equipment, rfl⟩

/-- A key is written exactly when its place is known. -/
theorem classifyKey_known {runtime : Runtime} (database : Database)
    {key : Key} {place : Place} {sensors equipment : List String}
    (placed : placeOf runtime key = .ok place)
    (sensor : place.sensorId ∈ sensors)
    (machine : place.equipmentId ∈ equipment) :
    ∃ decision,
      Routing.classifyKey runtime (answerFor key.companyId
        (readTenantReferences database place.schema sensors equipment)) key =
          .ok decision ∧ (decision = none ↔ known database place = true) := by
  obtain ⟨-, sensorId, equipmentId⟩ := placeOf_ok_iff.mp placed
  unfold Routing.classifyKey readTenantReferences known
  simp only [answerFor, if_true, Option.getD_some]
  cases registered : database.registry place.schema with
  | none => exact ⟨_, rfl, by simp⟩
  | some active =>
      cases active with
      | false => exact ⟨_, rfl, by simp⟩
      | true =>
          cases table : database.hasMeasurements place.schema with
          | false => exact ⟨_, rfl, by simp⟩
          | true =>
              simp only [if_true, sensorId, equipmentId]
              have held (ids : List String) (holds : String → Bool)
                  (id : String) (member : id ∈ ids) :
                  id ∈ ids.filter holds ↔ holds id = true := by
                rw [List.mem_filter, and_iff_right member]
              cases sensed : database.hasSensor place.schema
                  place.sensorId with
              | false =>
                  refine ⟨some .unknownSensor, ?_, by simp⟩
                  exact if_pos fun found => by
                    simp [(held _ _ _ sensor).mp found] at sensed
              | true =>
                  have present := (held _ _ _ sensor).mpr sensed
                  cases equipped : database.hasEquipment place.schema
                      place.equipmentId with
                  | false =>
                      refine ⟨some .unknownEquipment, ?_, by simp⟩
                      refine (if_neg (not_not.mpr present)).trans ?_
                      exact if_pos fun found => by
                        simp [(held _ _ _ machine).mp found] at equipped
                  | true =>
                      refine ⟨none, ?_, by simp⟩
                      refine (if_neg (not_not.mpr present)).trans ?_
                      exact if_neg (not_not.mpr
                        ((held _ _ _ machine).mpr equipped))

/-- What a row proposes, if its place is known. -/
def written (runtime : Runtime) (database : Database) (row : Aggregate) :
    Option (ConflictKey × Stats) :=
  match placeOf runtime row.group.key with
  | .ok place =>
      if known database place then
        some (place.at row.group.time, row.stats)
      else none
  | .error _ => none

theorem written_eq_some_iff {runtime : Runtime} {database : Database}
    {row : Aggregate} {entry : ConflictKey × Stats} :
    written runtime database row = some entry ↔
      ∃ place, placeOf runtime row.group.key = .ok place ∧
        known database place = true ∧
        entry = (place.at row.group.time, row.stats) := by
  unfold written
  cases placeOf runtime row.group.key with
  | error raised => simp
  | ok place =>
      simp only [Except.ok.injEq, exists_eq_left', eq_comm]
      cases known database place with
      | false => simp
      | true => simp

theorem proposed_eq {runtime : Runtime} {row : Aggregate} {place : Place}
    (placed : placeOf runtime row.group.key = .ok place) :
    proposed runtime place.schema row =
      .ok (place.at row.group.time, row.stats) := by
  obtain ⟨-, sensor, equipment⟩ := placeOf_ok_iff.mp placed
  unfold proposed
  rw [sensor, equipment]
  rfl

/-- The keys of a tenant that are refused are those of unknown places. -/
theorem refusedKeys_known {runtime : Runtime} {database : Database}
    {company schema : String} {keys : List Key}
    {refused : List (Key × Reason)}
    (done : refusedKeys runtime database company schema keys = .ok refused)
    {key : Key} {place : Place} (member : key ∈ keys)
    (own : key.companyId = company) (home : place.schema = schema)
    (placed : placeOf runtime key = .ok place) :
    key ∉ refused.map Prod.fst ↔ known database place = true := by
  obtain ⟨sensors, sensed, later⟩ := bind_ok_iff.mp done
  obtain ⟨equipment, equipped, classified⟩ := bind_ok_iff.mp later
  obtain ⟨-, sensor, machine⟩ := placeOf_ok_iff.mp placed
  have sensorMember : place.sensorId ∈ sensors := by
    obtain ⟨answer, inside, answered⟩ := mapM_mem sensed member
    cases sensor.symm.trans answered
    exact inside
  have machineMember : place.equipmentId ∈ equipment := by
    obtain ⟨answer, inside, answered⟩ := mapM_mem equipped member
    cases machine.symm.trans answered
    exact inside
  subst own
  subst home
  obtain ⟨decision, decided, unrefused⟩ :=
    classifyKey_known database placed sensorMember machineMember
  rw [← unrefused]
  constructor
  · intro absent
    cases decision with
    | none => rfl
    | some reason =>
        exact absurd (List.mem_map.mpr ⟨(key, reason),
          (Routing.classifyReferences_mem_iff classified).mpr
            ⟨member, decided⟩, rfl⟩) absent
  · rintro rfl found
    obtain ⟨⟨_, reason⟩, entry, rfl⟩ := List.mem_map.mp found
    have refusal :=
      ((Routing.classifyReferences_mem_iff classified).mp entry).2
    rw [decided] at refusal
    cases refusal

theorem proposed_kept {runtime : Runtime} {database : Database}
    {schema : String} {own : List Aggregate} {keep : Aggregate → Bool}
    (placed : ∀ row ∈ own, ∃ place,
      placeOf runtime row.group.key = .ok place ∧ place.schema = schema ∧
        (keep row = true ↔ known database place = true)) :
    (own.filter keep).mapM (proposed runtime schema) =
      .ok (own.filterMap (written runtime database)) := by
  induction own with
  | nil => rfl
  | cons row own induction =>
      obtain ⟨⟨place, found, home, kept⟩, later⟩ :=
        List.forall_mem_cons.mp placed
      subst home
      have below := induction later
      by_cases holds : known database place = true
      · have entry : written runtime database row =
            some (place.at row.group.time, row.stats) :=
          written_eq_some_iff.mpr ⟨place, found, holds, rfl⟩
        rw [List.filter_cons_of_pos (kept.mpr holds),
          List.filterMap_cons_some entry]
        exact mapM_cons_ok_iff.mpr ⟨_, _, proposed_eq found, below, rfl⟩
      · have absent : written runtime database row = none := by
          simp [written, found, holds]
        rw [List.filter_cons_of_neg (mt kept.mp holds),
          List.filterMap_cons_none absent]
        exact below

/-- A tenant whose rows can be read proposes what is known of them. -/
theorem tenantRows_placed {runtime : Runtime} {database : Database}
    {rows : List Aggregate} {company : String}
    {values : List (ConflictKey × Stats)}
    (done : tenantRows runtime database rows company = .ok values) :
    (∀ row ∈ rows, row.group.key.companyId = company →
        Returns (placeOf runtime row.group.key)) ∧
      values = (rows.filter (·.group.key.companyId = company)).filterMap
        (written runtime database) := by
  obtain ⟨schema, named, rest⟩ := bind_ok_iff.mp done
  obtain ⟨refused, judged, mapped⟩ := bind_ok_iff.mp rest
  obtain ⟨sensors, sensed, later⟩ := bind_ok_iff.mp judged
  obtain ⟨equipment, equipped, -⟩ := bind_ok_iff.mp later
  have places : ∀ row ∈ rows.filter (·.group.key.companyId = company),
      ∃ place, placeOf runtime row.group.key = .ok place ∧
        place.schema = schema ∧
        (decide (row.group.key ∉ refused.map Prod.fst) = true ↔
          known database place = true) := by
    intro row member
    have own : row.group.key.companyId = company :=
      of_decide_eq_true (List.mem_filter.mp member).2
    have key := List.mem_eraseDups.mpr
      (List.mem_map_of_mem (f := fun row : Aggregate => row.group.key) member)
    obtain ⟨sensorId, -, sensor⟩ := mapM_mem sensed key
    obtain ⟨equipmentId, -, machine⟩ := mapM_mem equipped key
    have placed : placeOf runtime row.group.key =
        .ok ⟨schema, sensorId, equipmentId⟩ :=
      placeOf_ok_iff.mpr ⟨by rw [own]; exact named, sensor, machine⟩
    refine ⟨_, placed, rfl, ?_⟩
    rw [decide_eq_true_iff]
    exact refusedKeys_known judged key own rfl placed
  constructor
  · intro row member own
    obtain ⟨place, placed, -⟩ := places row
      (List.mem_filter.mpr ⟨member, decide_eq_true own⟩)
    exact ⟨place, placed⟩
  · exact (Except.ok.inj ((proposed_kept places).symm.trans mapped)).symm

theorem classifyReferences_returns {runtime : Runtime}
    {answer : Routing.Answer} {keys : List Key}
    (decided : ∀ key ∈ keys,
      Returns (Routing.classifyKey runtime answer key)) :
    Returns (Routing.classifyReferences runtime answer keys) := by
  induction keys with
  | nil => exact returns_pure _
  | cons key keys induction =>
      obtain ⟨⟨decision, first⟩, later⟩ := List.forall_mem_cons.mp decided
      obtain ⟨rest, classified⟩ := induction later
      unfold Routing.classifyReferences
      rw [first, classified]
      cases decision with
      | none => exact ⟨rest, rfl⟩
      | some reason => exact ⟨(key, reason) :: rest, rfl⟩

theorem refusedKeys_returns {runtime : Runtime} (database : Database)
    {company schema : String} {keys : List Key}
    (own : ∀ key ∈ keys, key.companyId = company)
    (named : schemaName runtime.otherInt company = .ok schema)
    (placed : ∀ key ∈ keys, Returns (placeOf runtime key)) :
    Returns (refusedKeys runtime database company schema keys) := by
  have parts : ∀ key ∈ keys, ∃ place,
      placeOf runtime key = .ok place ∧ place.schema = schema := by
    intro key member
    obtain ⟨place, found⟩ := placed key member
    have home := (placeOf_ok_iff.mp found).1
    rw [own key member, named] at home
    exact ⟨place, found, (Except.ok.inj home).symm⟩
  obtain ⟨sensors, sensed⟩ := returns_mapM_iff.mpr
    fun key member => by
      obtain ⟨place, found, -⟩ := parts key member
      exact ⟨_, (placeOf_ok_iff.mp found).2.1⟩
  obtain ⟨equipment, equipped⟩ := returns_mapM_iff.mpr
    fun key member => by
      obtain ⟨place, found, -⟩ := parts key member
      exact ⟨_, (placeOf_ok_iff.mp found).2.2⟩
  refine returns_bind_iff.mpr ⟨sensors, sensed,
    returns_bind_iff.mpr ⟨equipment, equipped, ?_⟩⟩
  refine classifyReferences_returns fun key member => ?_
  obtain ⟨place, found, home⟩ := parts key member
  obtain ⟨-, sensor, machine⟩ := placeOf_ok_iff.mp found
  obtain ⟨sensorId, sensorMember, sensorDone⟩ := mapM_mem sensed member
  obtain ⟨equipmentId, machineMember, machineDone⟩ :=
    mapM_mem equipped member
  cases sensor.symm.trans sensorDone
  cases machine.symm.trans machineDone
  subst home
  obtain ⟨decision, decided, -⟩ :=
    classifyKey_known database found sensorMember machineMember
  rw [own key member] at decided
  exact ⟨decision, decided⟩

theorem tenantRows_returns {runtime : Runtime} {database : Database}
    {rows : List Aggregate} {company : String}
    (member : company ∈ rows.map (·.group.key.companyId))
    (placed : ∀ row ∈ rows, Returns (placeOf runtime row.group.key)) :
    Returns (tenantRows runtime database rows company) := by
  obtain ⟨first, inside, rfl⟩ := List.mem_map.mp member
  obtain ⟨place, found⟩ := placed first inside
  have named := (placeOf_ok_iff.mp found).1
  have keys : ∀ key ∈ ((rows.filter (·.group.key.companyId =
      first.group.key.companyId)).map (·.group.key)).eraseDups,
      key.companyId = first.group.key.companyId ∧
        Returns (placeOf runtime key) := by
    intro key found
    obtain ⟨row, kept, rfl⟩ :=
      List.mem_map.mp (List.mem_eraseDups.mp found)
    obtain ⟨here, own⟩ := List.mem_filter.mp kept
    exact ⟨of_decide_eq_true own, placed row here⟩
  obtain ⟨refused, judged⟩ := refusedKeys_returns database
    (fun key found => (keys key found).1) named
    (fun key found => (keys key found).2)
  refine returns_bind_iff.mpr ⟨_, named,
    returns_bind_iff.mpr ⟨refused, judged, ?_⟩⟩
  refine returns_mapM_iff.mpr fun row kept => ?_
  obtain ⟨here, -⟩ := List.mem_filter.mp (List.mem_filter.mp kept).1
  obtain ⟨own, found⟩ := placed row here
  obtain ⟨-, sensor, machine⟩ := placeOf_ok_iff.mp found
  unfold proposed
  rw [sensor, machine]
  exact ⟨_, rfl⟩

/-! ## All tenants -/

/-- What the batch proposes, tenant by tenant. -/
def writes (runtime : Runtime) (database : Database)
    (rows : List Aggregate) (companies : List String) :
    List (ConflictKey × Stats) :=
  companies.flatMap fun company =>
    (rows.filter (·.group.key.companyId = company)).filterMap
      (written runtime database)

theorem writeTenants_unraised {runtime : Runtime} {database : Database}
    {rows : List Aggregate} {tables : Tables} {companies : List String}
    (succeeds : (writeTenants runtime database rows tables
      companies).raised = none) :
    (∀ row ∈ rows, row.group.key.companyId ∈ companies →
        Returns (placeOf runtime row.group.key)) ∧
      (writeTenants runtime database rows tables companies).tables =
        tables.putAll (writes runtime database rows companies) := by
  induction companies generalizing tables with
  | nil => exact ⟨by simp, rfl⟩
  | cons company companies induction =>
      unfold writeTenants at succeeds ⊢
      cases proposing : tenantRows runtime database rows company with
      | error raised => simp [proposing] at succeeds
      | ok values =>
          obtain ⟨placed, same⟩ := tenantRows_placed proposing
          cases ran : runStatements tables (pagesAfter pageSize [] values) with
          | mk statements final =>
              simp only [proposing, ran] at succeeds ⊢
              cases final with
              | none => cases succeeds
              | some written =>
                  obtain ⟨later, rest⟩ := induction succeeds
                  have final : written = tables.putAll values := by
                    have := runStatements_some (congrArg Prod.snd ran)
                    rwa [pagesAfter_flatten, List.nil_append] at this
                  constructor
                  · intro row member inside
                    rcases List.mem_cons.mp inside with own | other
                    · exact placed row member own
                    · exact later row member other
                  · simp only at rest ⊢
                    rw [rest, final, same, ← Table.putAll_append]
                    rfl

theorem writeTenants_distinct {runtime : Runtime} {database : Database}
    {rows : List Aggregate} {tables : Tables} {companies : List String}
    (placed : ∀ company ∈ companies,
      Returns (tenantRows runtime database rows company))
    (distinct : ((writes runtime database rows companies).map
      Prod.fst).Nodup) :
    (writeTenants runtime database rows tables companies).raised = none ∧
      ∀ statement ∈ (writeTenants runtime database rows tables
        companies).statements, statement.Nodup := by
  induction companies generalizing tables with
  | nil => exact ⟨rfl, by simp [writeTenants]⟩
  | cons company companies induction =>
      obtain ⟨⟨values, proposing⟩, later⟩ := List.forall_mem_cons.mp placed
      obtain ⟨-, same⟩ := tenantRows_placed proposing
      unfold writes at distinct
      rw [List.flatMap_cons, List.map_append, ← same] at distinct
      obtain ⟨own, others, -⟩ := List.nodup_append.mp distinct
      have pages : ∀ page ∈ pagesAfter pageSize [] values,
          (page.map Prod.fst).Nodup := by
        intro page member
        have inside : page.Sublist values := by
          have found := List.sublist_flatten_of_mem member
          rwa [pagesAfter_flatten, List.nil_append] at found
        exact own.sublist (inside.map Prod.fst)
      unfold writeTenants
      simp only [proposing, runStatements_distinct pages]
      obtain ⟨succeeds, statements⟩ := induction later others
      refine ⟨succeeds, ?_⟩
      intro statement member
      rcases List.mem_append.mp member with early | late
      · obtain ⟨page, found, rfl⟩ := List.mem_map.mp early
        exact pages page found
      · exact statements statement late

theorem writes_perm {runtime : Runtime} {database : Database}
    {rows : List Aggregate} {companies : List String}
    (distinct : companies.Nodup)
    (all : ∀ row ∈ rows, row.group.key.companyId ∈ companies) :
    (writes runtime database rows companies).Perm
      (rows.filterMap (written runtime database)) := by
  have dealt := flatMap_filter_perm
    (fun row : Aggregate => row.group.key.companyId) distinct rows
  rw [List.filter_eq_self.mpr fun row member =>
    decide_eq_true (all row member)] at dealt
  have mapped := dealt.filterMap (written runtime database)
  rwa [List.filterMap_flatMap] at mapped

/-! ## The aggregates of a batch -/

section

variable {runtime : Runtime} {engine : Engine} {database : Database}
  {granularity : Granularity} {readings : List Reading} {tables : Tables}

/-- The frame that the job collects. -/
def collected (runtime : Runtime) (engine : Engine)
    (granularity : Granularity) (readings : List Reading) :
    List Aggregate :=
  engine.order (aggregateReadings runtime engine granularity readings)

/-- The summary of the group of a row. -/
def summary (engine : Engine) (granularity : Granularity)
    (rows : List Measurement) (row : Measurement) : Aggregate :=
  ⟨groupOf granularity row,
    engine.stats (valuesOf granularity rows (groupOf granularity row))⟩

@[simp] theorem summary_key (rows : List Measurement) (row : Measurement) :
    (summary engine granularity rows row).group.key = row.key := rfl

@[simp] theorem summary_time (rows : List Measurement) (row : Measurement) :
    (summary engine granularity rows row).group.time =
      granularity.windowEnd row.time := rfl

theorem mem_collected {aggregate : Aggregate} :
    aggregate ∈ collected runtime engine granularity readings ↔
      ∃ row ∈ validRows runtime readings,
        aggregate = summary engine granularity
          (validRows runtime readings) row := by
  unfold collected
  rw [(engine.order_perm _).mem_iff]
  unfold aggregateReadings
  simp only [List.mem_map, List.mem_eraseDups]
  constructor
  · rintro ⟨_, ⟨row, member, rfl⟩, rfl⟩
    exact ⟨row, member, rfl⟩
  · rintro ⟨row, member, rfl⟩
    exact ⟨_, ⟨row, member, rfl⟩, rfl⟩

theorem summary_mem {row : Measurement}
    (member : row ∈ validRows runtime readings) :
    summary engine granularity (validRows runtime readings) row ∈
      collected runtime engine granularity readings :=
  mem_collected.mpr ⟨row, member, rfl⟩

theorem collected_nodup :
    ((collected runtime engine granularity readings).map
      Aggregate.group).Nodup := by
  refine ((engine.order_perm _).map Aggregate.group).nodup_iff.mpr ?_
  unfold aggregateReadings
  simp only [List.map_map]
  have same : (Aggregate.group ∘ fun group => (⟨group, engine.stats
      (valuesOf granularity (validRows runtime readings) group)⟩ :
        Aggregate)) = id := rfl
  rw [same, List.map_id]
  exact nodup_eraseDups _

/-- Uniform spellings give each key of the table one summary. -/
theorem Uniform.written_group
    (uniform : Uniform runtime database granularity readings)
    {first second : Aggregate}
    (inFirst : first ∈ collected runtime engine granularity readings)
    (inSecond : second ∈ collected runtime engine granularity readings)
    {one other : ConflictKey × Stats}
    (ofFirst : written runtime database first = some one)
    (ofSecond : written runtime database second = some other)
    (same : one.1 = other.1) : first.group = second.group := by
  obtain ⟨row, member, rfl⟩ := mem_collected.mp inFirst
  obtain ⟨twin, twinMember, rfl⟩ := mem_collected.mp inSecond
  obtain ⟨place, placed, holds, rfl⟩ := written_eq_some_iff.mp ofFirst
  obtain ⟨spot, spotted, -, rfl⟩ := written_eq_some_iff.mp ofSecond
  simp only [Place.at, ConflictKey.mk.injEq] at same
  obtain ⟨schema, time, sensor, equipment⟩ := same
  have here : place = spot := by
    cases place
    cases spot
    simp_all
  subst here
  have spelled : row.key = twin.key :=
    uniform row member twin twinMember place time placed spotted holds
  change Group.mk _ _ = Group.mk _ _
  rw [spelled]
  exact congrArg (Group.mk · _) time

theorem Uniform.writes_nodup
    (uniform : Uniform runtime database granularity readings) :
    (((collected runtime engine granularity readings).filterMap
      (written runtime database)).map Prod.fst).Nodup := by
  have distinct : ((collected runtime engine granularity readings).map
      Aggregate.group).Nodup := collected_nodup
  rw [List.Nodup, List.pairwise_map] at distinct ⊢
  rw [List.pairwise_filterMap]
  refine distinct.imp_of_mem ?_
  intro first second inFirst inSecond apart one ofFirst other ofSecond same
  exact apart (uniform.written_group inFirst inSecond ofFirst ofSecond same)

/-- The rows of a key of the table. -/
theorem meant_of_uniform
    (uniform : Uniform runtime database granularity readings)
    {row : Measurement} (member : row ∈ validRows runtime readings)
    {place : Place} (placed : placeOf runtime row.key = .ok place)
    (holds : known database place = true) :
    valuesOf granularity (validRows runtime readings)
        (groupOf granularity row) =
      meant runtime granularity (validRows runtime readings)
        (place.at (granularity.windowEnd row.time)) := by
  unfold valuesOf meant
  refine congrArg (List.map _) (List.filter_congr fun other inside => ?_)
  refine decide_eq_decide.mpr ⟨?_, ?_⟩
  · intro same
    obtain ⟨time, key⟩ := Group.mk.inj same
    exact ⟨time, by rw [key]; exact placed⟩
  · rintro ⟨time, here⟩
    have spelled : other.key = row.key :=
      uniform other inside row member place time here placed holds
    unfold groupOf
    rw [spelled]
    exact congrArg (Group.mk · _) time

theorem mem_tenants {rows : List Aggregate} {company : String} :
    company ∈ tenants rows ↔
      company ∈ rows.map (·.group.key.companyId) := by
  unfold tenants
  rw [List.mem_insertionSort, List.mem_eraseDups]

theorem tenant_mem {rows : List Aggregate} {row : Aggregate}
    (member : row ∈ rows) : row.group.key.companyId ∈ tenants rows :=
  mem_tenants.mpr (List.mem_map.mpr ⟨row, member, rfl⟩)

theorem tenants_nodup (rows : List Aggregate) : (tenants rows).Nodup :=
  (List.perm_insertionSort _ _).nodup_iff.mpr (nodup_eraseDups _)

theorem fromInternal_returns_iff {time : Int} :
    Returns (fromInternal runtime time) ↔
      runtime.earliest ≤ time ∧ time ≤ runtime.latest := by
  unfold fromInternal
  split
  · rename_i outside
    simp only [Returns, reduceCtorEq, exists_false, false_iff]
    omega
  · rename_i inside
    simp only [Returns, Except.ok.injEq, exists_eq', true_iff]
    omega

theorem placeOf_returns_iff {row : Measurement} {reading : Reading}
    (passes : passing runtime reading = some row) :
    Returns (placeOf runtime row.key) ↔
      ¬EndsInLineTerminator row.companyId ∧
        ¬EndsInLineTerminator row.sensorId ∧
        ¬EndsInLineTerminator row.equipmentId := by
  obtain ⟨company, sensor, equipment, -⟩ := passing_cases passes
  rw [← schemaName_returns_iff company runtime.otherInt,
    ← canonicalUuid_returns_iff sensor runtime.otherInt,
    ← canonicalUuid_returns_iff equipment runtime.otherInt]
  constructor
  · rintro ⟨place, placed⟩
    obtain ⟨named, sensed, equipped⟩ := placeOf_ok_iff.mp placed
    exact ⟨⟨_, named⟩, ⟨_, sensed⟩, ⟨_, equipped⟩⟩
  · rintro ⟨⟨schema, named⟩, ⟨sensorId, sensed⟩, ⟨equipmentId, equipped⟩⟩
    exact ⟨⟨schema, sensorId, equipmentId⟩,
      placeOf_ok_iff.mpr ⟨named, sensed, equipped⟩⟩

/-- The rows that the driver can read. -/
theorem readable_iff {row : Measurement}
    (member : row ∈ validRows runtime readings) :
    Readable runtime granularity row ↔
      Returns (placeOf runtime row.key) ∧
        Returns (fromInternal runtime (granularity.windowEnd row.time)) := by
  obtain ⟨reading, -, passes⟩ := List.mem_filterMap.mp member
  rw [placeOf_returns_iff passes, fromInternal_returns_iff]
  constructor
  · rintro ⟨company, sensor, equipment, early, late⟩
    exact ⟨⟨company, sensor, equipment⟩, early, late⟩
  · rintro ⟨⟨company, sensor, equipment⟩, early, late⟩
    exact ⟨company, sensor, equipment, early, late⟩

/-- A batch that succeeds has read every row, and left what it proposed. -/
theorem aggregate_unraised
    (succeeds : (aggregate runtime engine database granularity readings
      tables).raised = none) :
    (∀ row ∈ validRows runtime readings, Readable runtime granularity row) ∧
      (aggregate runtime engine database granularity readings
          tables).tables =
        tables.putAll (writes runtime database
          (collected runtime engine granularity readings)
          (tenants (collected runtime engine granularity readings))) := by
  change (writeAggregations runtime database
    (collected runtime engine granularity readings) tables).raised = none
    at succeeds
  change _ ∧ (writeAggregations runtime database
    (collected runtime engine granularity readings) tables).tables = _
  unfold writeAggregations at succeeds ⊢
  cases timed : (collected runtime engine granularity readings).mapM
      (fun row => fromInternal runtime row.group.time) with
  | error raised => simp [timed] at succeeds
  | ok times =>
      simp only [timed] at succeeds ⊢
      obtain ⟨placed, left⟩ := writeTenants_unraised succeeds
      refine ⟨?_, left⟩
      intro row member
      have inside : summary engine granularity
          (validRows runtime readings) row ∈
            collected runtime engine granularity readings :=
        summary_mem member
      have home := tenant_mem inside
      obtain ⟨time, -, done⟩ := mapM_mem timed inside
      have found := placed _ inside home
      rw [summary_key] at found
      rw [summary_time] at done
      exact (readable_iff member).mpr ⟨found, time, done⟩

/-- A batch that can be read and is spelled uniformly succeeds. -/
theorem aggregate_succeeds
    (readable : ∀ row ∈ validRows runtime readings,
      Readable runtime granularity row)
    (uniform : Uniform runtime database granularity readings) :
    (aggregate runtime engine database granularity readings
        tables).raised = none ∧
      ∀ statement ∈ (aggregate runtime engine database granularity readings
        tables).statements, statement.Nodup := by
  change (writeAggregations runtime database
      (collected runtime engine granularity readings) tables).raised = none ∧
    ∀ statement ∈ (writeAggregations runtime database
      (collected runtime engine granularity readings) tables).statements,
        statement.Nodup
  have read : ∀ row ∈ collected runtime engine granularity readings,
      Returns (placeOf runtime row.group.key) ∧
        Returns (fromInternal runtime row.group.time) := by
    intro aggregate inside
    obtain ⟨row, member, rfl⟩ := mem_collected.mp inside
    exact (readable_iff member).mp (readable row member)
  obtain ⟨times, timed⟩ := returns_mapM_iff.mpr
    fun row member => (read row member).2
  unfold writeAggregations
  simp only [timed]
  apply writeTenants_distinct
  · intro company member
    exact tenantRows_returns (mem_tenants.mp member)
      fun row inside => (read row inside).1
  · refine ((writes_perm (tenants_nodup _) ?_).map _).nodup_iff.mpr
      uniform.writes_nodup
    exact fun row inside => tenant_mem inside

/-- What the batch proposes for a key of the table. -/
theorem mem_writes {entry : ConflictKey × Stats} :
    entry ∈ writes runtime database
        (collected runtime engine granularity readings)
        (tenants (collected runtime engine granularity readings)) ↔
      ∃ row ∈ validRows runtime readings, ∃ place,
        placeOf runtime row.key = .ok place ∧
          known database place = true ∧
          entry = (place.at (granularity.windowEnd row.time), engine.stats
            (valuesOf granularity (validRows runtime readings)
              (groupOf granularity row))) := by
  have dealt : (writes runtime database
        (collected runtime engine granularity readings)
        (tenants (collected runtime engine granularity readings))).Perm
      ((collected runtime engine granularity readings).filterMap
        (written runtime database)) :=
    writes_perm (tenants_nodup _) fun row member => tenant_mem member
  rw [dealt.mem_iff, List.mem_filterMap]
  constructor
  · rintro ⟨aggregate, inside, found⟩
    obtain ⟨row, member, rfl⟩ := mem_collected.mp inside
    rw [written_eq_some_iff, summary_key, summary_time] at found
    exact ⟨row, member, found⟩
  · rintro ⟨row, member, found⟩
    refine ⟨_, summary_mem member, ?_⟩
    rw [written_eq_some_iff, summary_key, summary_time]
    exact found

theorem mem_meant_iff {key : ConflictKey} :
    meant runtime granularity (validRows runtime readings) key ≠ [] ↔
      ∃ row ∈ validRows runtime readings,
        granularity.windowEnd row.time = key.time ∧
          placeOf runtime row.key = .ok key.place := by
  unfold meant
  rw [Ne, List.map_eq_nil_iff, List.filter_eq_nil_iff]
  simp only [decide_eq_true_eq, not_forall, not_not]
  constructor
  · rintro ⟨row, member, holds⟩
    exact ⟨row, member, holds⟩
  · rintro ⟨row, member, holds⟩
    exact ⟨row, member, holds⟩

/-- The table has for a known key with readings the summary of one group. -/
theorem putAll_writes (engine : Engine) (granularity : Granularity)
    (tables : Tables) {row : Measurement}
    (member : row ∈ validRows runtime readings) {place : Place}
    (placed : placeOf runtime row.key = .ok place)
    (holds : known database place = true) :
    ∃ other ∈ validRows runtime readings,
      granularity.windowEnd other.time = granularity.windowEnd row.time ∧
        placeOf runtime other.key = .ok place ∧
        tables.putAll (writes runtime database
          (collected runtime engine granularity readings)
          (tenants (collected runtime engine granularity readings)))
          (place.at (granularity.windowEnd row.time)) =
            some (engine.stats (valuesOf granularity
              (validRows runtime readings) (groupOf granularity other))) := by
  have proposal : (place.at (granularity.windowEnd row.time), engine.stats
      (valuesOf granularity (validRows runtime readings)
        (groupOf granularity row))) ∈ writes runtime database
          (collected runtime engine granularity readings)
          (tenants (collected runtime engine granularity readings)) :=
    mem_writes.mpr ⟨row, member, place, placed, holds, rfl⟩
  obtain ⟨value, inside, found⟩ :=
    Table.putAll_mem tables (List.mem_map.mpr ⟨_, proposal, rfl⟩)
  obtain ⟨other, otherMember, spot, spotted, -, same⟩ :=
    mem_writes.mp inside
  obtain ⟨key, rfl⟩ := Prod.mk.inj same
  simp only [Place.at, ConflictKey.mk.injEq] at key
  obtain ⟨schema, time, sensor, equipment⟩ := key
  have here : place = spot := by
    cases place
    cases spot
    simp_all
  subst here
  exact ⟨other, otherMember, time.symm, spotted, found⟩

/-- Uniform spellings leave what is meant. -/
theorem Uniform.tables_eq
    (uniform : Uniform runtime database granularity readings) :
    tables.putAll (writes runtime database
        (collected runtime engine granularity readings)
        (tenants (collected runtime engine granularity readings))) =
      expected runtime engine database granularity readings tables := by
  funext key
  simp only [expected]
  split
  · rename_i meaningful
    obtain ⟨row, member, time, placed⟩ := mem_meant_iff.mp meaningful.1
    obtain ⟨other, otherMember, same, spotted, found⟩ :=
      putAll_writes engine granularity tables member placed meaningful.2
    rw [meant_of_uniform uniform otherMember spotted meaningful.2, same,
      time] at found
    exact found
  · rename_i meaningless
    refine Table.putAll_absent fun proposal => meaningless ?_
    obtain ⟨⟨_, value⟩, inside, rfl⟩ := List.mem_map.mp proposal
    obtain ⟨row, member, place, placed, holds, same⟩ :=
      mem_writes.mp inside
    cases same
    exact ⟨mem_meant_iff.mpr ⟨row, member, rfl, placed⟩, holds⟩

/-- A group that leaves a reading of its key out is smaller than is meant. -/
theorem valuesOf_length_lt {row other : Measurement}
    (otherMember : other ∈ validRows runtime readings) {place : Place}
    (placed : placeOf runtime row.key = .ok place)
    (otherPlaced : placeOf runtime other.key = .ok place)
    (time : granularity.windowEnd other.time =
      granularity.windowEnd row.time)
    (spelled : other.key ≠ row.key) :
    (valuesOf granularity (validRows runtime readings)
        (groupOf granularity row)).length <
      (meant runtime granularity (validRows runtime readings)
        (place.at (granularity.windowEnd row.time))).length := by
  unfold valuesOf meant
  rw [List.length_map, List.length_map]
  have narrowed : (validRows runtime readings).filter
      (fun one => decide (groupOf granularity one = groupOf granularity row)) =
      ((validRows runtime readings).filter fun one =>
        decide (granularity.windowEnd one.time =
            (place.at (granularity.windowEnd row.time)).time ∧
          placeOf runtime one.key =
            .ok (place.at (granularity.windowEnd row.time)).place)).filter
        fun one =>
          decide (groupOf granularity one = groupOf granularity row) := by
    rw [List.filter_filter]
    refine List.filter_congr fun one _ => ?_
    by_cases same : groupOf granularity one = groupOf granularity row
    · obtain ⟨when, key⟩ := Group.mk.inj same
      have here : placeOf runtime one.key = .ok place := by
        rw [key]
        exact placed
      simp only [same, decide_true, Bool.true_and]
      exact (decide_eq_true ⟨when, here⟩).symm
    · simp [same]
  rw [narrowed, List.length_filter_lt_length_iff_exists]
  refine ⟨other, List.mem_filter.mpr
    ⟨otherMember, decide_eq_true ⟨time, otherPlaced⟩⟩, ?_⟩
  intro same
  exact spelled (Group.mk.inj (of_decide_eq_true same)).2

/-- Tables left as they are meant show uniform spellings. -/
theorem uniform_of_tables
    (left : tables.putAll (writes runtime database
        (collected runtime engine granularity readings)
        (tenants (collected runtime engine granularity readings))) =
      expected runtime engine database granularity readings tables) :
    Uniform runtime database granularity readings := by
  intro first member second secondMember place time placed secondPlaced holds
  obtain ⟨row, rowMember, same, spotted, found⟩ :=
    putAll_writes engine granularity tables member placed holds
  rw [left] at found
  have meaningful : meant runtime granularity (validRows runtime readings)
      (place.at (granularity.windowEnd first.time)) ≠ [] :=
    mem_meant_iff.mpr ⟨first, member, rfl, placed⟩
  have counted : (meant runtime granularity (validRows runtime readings)
      (place.at (granularity.windowEnd first.time))).length =
        (valuesOf granularity (validRows runtime readings)
          (groupOf granularity row)).length := by
    simp only [expected] at found
    rw [if_pos ⟨meaningful, holds⟩] at found
    exact congrArg Stats.countValues (Option.some.inj found)
  have alike : ∀ other ∈ validRows runtime readings,
      placeOf runtime other.key = .ok place →
      granularity.windowEnd other.time = granularity.windowEnd first.time →
      other.key = row.key := by
    intro other otherMember otherPlaced when
    by_contra spelled
    have fewer := valuesOf_length_lt otherMember spotted otherPlaced
      (when.trans same.symm) spelled
    rw [same] at fewer
    omega
  rw [alike first member placed rfl,
    alike second secondMember secondPlaced time.symm]

/-- What is left, and how the batch ends, when it is meant so. -/
theorem faithful_iff (runtime : Runtime) (engine : Engine)
    (database : Database) (granularity : Granularity)
    (readings : List Reading) (tables : Tables) :
    Faithful runtime engine database granularity readings tables
        (aggregate runtime engine database granularity readings tables) ↔
      (∀ row ∈ validRows runtime readings,
          Readable runtime granularity row) ∧
        Uniform runtime database granularity readings := by
  constructor
  · intro faithful
    obtain ⟨readable, left⟩ := aggregate_unraised faithful.succeeds
    exact ⟨readable, uniform_of_tables (left.symm.trans faithful.tables)⟩
  · rintro ⟨readable, uniform⟩
    obtain ⟨succeeds, distinct⟩ := aggregate_succeeds readable uniform
    refine ⟨succeeds, ?_, distinct⟩
    rw [(aggregate_unraised succeeds).2]
    exact uniform.tables_eq

end

/-! ## Other spellings -/

/-- Two identifiers are the same text, or accepted spellings of one UUID. -/
def SameId (runtime : Runtime) (first second : Option String) : Prop :=
  first = second ∨ ∃ one other canonical,
    first = some one ∧ second = some other ∧
      rlikeUuid one = true ∧ rlikeUuid other = true ∧
      canonicalUuid runtime.otherInt one = .ok canonical ∧
      canonicalUuid runtime.otherInt other = .ok canonical

/-- The same reading with its identifiers spelled otherwise. -/
structure Respelled (runtime : Runtime) (reading other : Reading) :
    Prop where
  company : SameId runtime reading.companyId other.companyId
  sensor : SameId runtime reading.sensorId other.sensorId
  equipment : SameId runtime reading.equipmentId other.equipmentId
  rest : other = { reading with
    companyId := other.companyId
    sensorId := other.sensorId
    equipmentId := other.equipmentId }

theorem SameId.cases {runtime : Runtime} {first second : Option String}
    (same : SameId runtime first second) :
    first = none ∧ second = none ∨
      ∃ one other, first = some one ∧ second = some other ∧
        rlikeUuid one = rlikeUuid other ∧
        canonicalUuid runtime.otherInt one =
          canonicalUuid runtime.otherInt other := by
  rcases same with rfl | ⟨one, other, canonical, rfl, rfl, accepted,
    otherAccepted, read, otherRead⟩
  · cases first with
    | none => exact .inl ⟨rfl, rfl⟩
    | some one => exact .inr ⟨one, one, rfl, rfl, rfl, rfl⟩
  · exact .inr ⟨one, other, rfl, rfl, accepted.trans otherAccepted.symm,
      read.trans otherRead.symm⟩

theorem schemaName_congr {runtime : Runtime} {one other : String}
    (same : canonicalUuid runtime.otherInt one =
      canonicalUuid runtime.otherInt other) :
    schemaName runtime.otherInt one = schemaName runtime.otherInt other := by
  unfold schemaName
  rw [same]

/-- Two rows that differ in the spelling of their identifiers only. -/
structure Alike (runtime : Runtime) (row other : Measurement) : Prop where
  time : row.time = other.time
  value : row.value = other.value
  place : placeOf runtime row.key = placeOf runtime other.key

theorem Respelled.measurement {runtime : Runtime} {reading other : Reading}
    (respelled : Respelled runtime reading other) :
    reading.measurement? = none ∧ other.measurement? = none ∨
      ∃ row twin, reading.measurement? = some row ∧
        other.measurement? = some twin ∧ Alike runtime row twin ∧
        rlikeUuid row.companyId = rlikeUuid twin.companyId ∧
        rlikeUuid row.sensorId = rlikeUuid twin.sensorId ∧
        rlikeUuid row.equipmentId = rlikeUuid twin.equipmentId := by
  obtain ⟨company, sensor, equipment, rest⟩ := respelled
  obtain ⟨_, _, sensorId, equipmentId, _, companyId, _, _, _⟩ := reading
  obtain ⟨source, time, otherSensor, otherEquipment, siteId, otherCompany,
    value, unit, qualityCode⟩ := other
  simp only [Reading.mk.injEq] at rest company sensor equipment
  obtain ⟨rfl, rfl, -, -, rfl, -, rfl, rfl, rfl⟩ := rest
  rcases company.cases with ⟨rfl, rfl⟩ |
    ⟨one, another, rfl, rfl, companyLike, companySame⟩
  · left
    simp [Reading.measurement?]
  rcases sensor.cases with ⟨rfl, rfl⟩ |
    ⟨sense, resense, rfl, rfl, sensorLike, sensorSame⟩
  · left
    simp [Reading.measurement?]
  rcases equipment.cases with ⟨rfl, rfl⟩ |
    ⟨machine, remachine, rfl, rfl, equipmentLike, equipmentSame⟩
  · left
    simp [Reading.measurement?]
  cases time with
  | none =>
      left
      exact ⟨rfl, rfl⟩
  | some time =>
      cases siteId with
      | none =>
          left
          exact ⟨rfl, rfl⟩
      | some site =>
          cases value with
          | none =>
              left
              exact ⟨rfl, rfl⟩
          | some value =>
              right
              refine ⟨_, _, rfl, rfl, ⟨rfl, rfl, ?_⟩, companyLike,
                sensorLike, equipmentLike⟩
              simp only [placeOf, Measurement.key,
                schemaName_congr companySame, sensorSame, equipmentSame]

/-- The guard does not see the spelling. -/
theorem Respelled.passing {runtime : Runtime} {reading other : Reading}
    (respelled : Respelled runtime reading other) :
    passing runtime reading = none ∧ passing runtime other = none ∨
      ∃ row twin, passing runtime reading = some row ∧
        passing runtime other = some twin ∧ Alike runtime row twin := by
  rcases respelled.measurement with ⟨missing, otherMissing⟩ |
    ⟨row, twin, found, otherFound, alike, company, sensor, equipment⟩
  · left
    simp [Measurements.passing, rejectionReason, missing, otherMissing]
  · have reasons : rejectionReason runtime reading =
        rejectionReason runtime other := by
      simp only [rejectionReason, found, otherFound, company, sensor,
        equipment, alike.time]
    unfold Measurements.passing
    rw [reasons, found, otherFound]
    by_cases accepted : rejectionReason runtime other = none
    · right
      rw [if_pos accepted, if_pos accepted]
      exact ⟨row, twin, rfl, rfl, alike⟩
    · left
      rw [if_neg accepted, if_neg accepted]
      exact ⟨rfl, rfl⟩

theorem validRows_alike {runtime : Runtime} {readings respelled : List Reading}
    (same : List.Forall₂ (Respelled runtime) readings respelled) :
    List.Forall₂ (Alike runtime) (validRows runtime readings)
      (validRows runtime respelled) := by
  induction same with
  | nil => exact .nil
  | cons first _ induction =>
      unfold validRows at induction ⊢
      rcases first.passing with ⟨stopped, otherStopped⟩ |
        ⟨row, twin, passes, otherPasses, alike⟩
      · rw [List.filterMap_cons_none stopped,
          List.filterMap_cons_none otherStopped]
        exact induction
      · rw [List.filterMap_cons_some passes,
          List.filterMap_cons_some otherPasses]
        exact .cons alike induction

theorem meant_alike {runtime : Runtime} {granularity : Granularity}
    {rows others : List Measurement}
    (alike : List.Forall₂ (Alike runtime) rows others) (key : ConflictKey) :
    meant runtime granularity rows key =
      meant runtime granularity others key := by
  induction alike with
  | nil => rfl
  | cons first _ induction =>
      unfold meant at induction ⊢
      simp only [List.filter_cons, first.time, first.place]
      split
      · rw [List.map_cons, List.map_cons, induction, first.value]
      · exact induction

/-- What is meant does not depend on the spelling. -/
theorem expected_respelled {runtime : Runtime} {engine : Engine}
    {database : Database} {granularity : Granularity}
    {readings respelled : List Reading} {tables : Tables}
    (same : List.Forall₂ (Respelled runtime) readings respelled) :
    expected runtime engine database granularity readings tables =
      expected runtime engine database granularity respelled tables := by
  funext key
  simp only [expected, meant_alike (validRows_alike same) key]

/-- The job leaves what is meant exactly when it can read the accepted
readings and they are spelled uniformly; other such spellings of the readings
then leave the same. -/
theorem aggregates_spelled (runtime : Runtime) (engine : Engine)
    (database : Database) (granularity : Granularity)
    (readings : List Reading) (tables : Tables) :
    (Faithful runtime engine database granularity readings tables
          (aggregate runtime engine database granularity readings tables) ↔
        (∀ row ∈ validRows runtime readings,
            Readable runtime granularity row) ∧
          Uniform runtime database granularity readings) ∧
      ∀ respelled, List.Forall₂ (Respelled runtime) readings respelled →
        (∀ row ∈ validRows runtime readings,
            Readable runtime granularity row) →
        Uniform runtime database granularity readings →
        (∀ row ∈ validRows runtime respelled,
            Readable runtime granularity row) →
        Uniform runtime database granularity respelled →
        (aggregate runtime engine database granularity respelled
            tables).raised = none ∧
          (aggregate runtime engine database granularity respelled
              tables).tables =
            (aggregate runtime engine database granularity readings
              tables).tables := by
  refine ⟨faithful_iff runtime engine database granularity readings tables,
    ?_⟩
  intro respelled same readable uniform otherReadable otherUniform
  have before := (faithful_iff runtime engine database granularity readings
    tables).mpr ⟨readable, uniform⟩
  have after := (faithful_iff runtime engine database granularity respelled
    tables).mpr ⟨otherReadable, otherUniform⟩
  refine ⟨after.succeeds, ?_⟩
  rw [after.tables, before.tables]
  exact (expected_respelled same).symm

/-- A reading at the beginning of 1970, its sensor spelled in lower case. -/
def lowerReading : Reading where
  source := ⟨"", "sensor-data-raw", 0, 0⟩
  time := some 0
  sensorId := some "aaaaaaaa-aaaa-4aaa-8aaa-aaaaaaaaaaaa"
  equipmentId := some "33333333-3333-4333-8333-333333333333"
  siteId := some "site"
  companyId := some "11111111-1111-4111-8111-111111111111"
  value := some 0
  unit := none
  qualityCode := none

/-- The same sensor in upper case. -/
def upperReading : Reading :=
  { lowerReading with
    sensorId := some "AAAAAAAA-AAAA-4AAA-8AAA-AAAAAAAAAAAA" }

/-- Summaries that are no more than a count. -/
def counting : Engine where
  avg _ := 0
  min _ := 0
  max _ := 0
  stddev _ := none
  order rows := rows
  order_perm _ := .refl _

theorem upperReading_respelled : Respelled epoch lowerReading upperReading where
  company := .inl rfl
  sensor := .inr ⟨_, _, "aaaaaaaa-aaaa-4aaa-8aaa-aaaaaaaaaaaa", rfl, rfl,
    by decide +kernel, by decide +kernel, by decide +kernel,
    by decide +kernel⟩
  equipment := .inl rfl
  rest := rfl

/-- Two readings of one minute succeed when they spell their sensor alike, and
fail when they do not. -/
theorem spelling_fails_batch :
    ¬∀ (runtime : Runtime) (engine : Engine) (database : Database)
      (granularity : Granularity) (readings respelled : List Reading)
      (tables : Tables),
      List.Forall₂ (Respelled runtime) readings respelled →
        ((aggregate runtime engine database granularity readings
            tables).raised = none →
          (aggregate runtime engine database granularity respelled
            tables).raised = none) := by
  intro independent
  have alone : (aggregate epoch counting everything .oneMinute
      [lowerReading, lowerReading] fun _ => none).raised = none := by
    decide +kernel
  have together : (aggregate epoch counting everything .oneMinute
      [lowerReading, upperReading] fun _ => none).raised =
        some .cardinalityViolation := by
    decide +kernel
  have same : List.Forall₂ (Respelled epoch) [lowerReading, lowerReading]
      [lowerReading, upperReading] := by
    refine .cons ?_ (.cons upperReading_respelled .nil)
    exact ⟨.inl rfl, .inl rfl, .inl rfl, rfl⟩
  have unraised := independent epoch counting everything .oneMinute _ _ _
    same alone
  rw [together] at unraised
  cases unraised

theorem uniform_pair (runtime : Runtime) (database : Database)
    (granularity : Granularity) (reading : Reading) :
    Uniform runtime database granularity [reading, reading] := by
  intro first member second secondMember _ _ _ _ _
  obtain ⟨one, found, passes⟩ := List.mem_filterMap.mp member
  obtain ⟨other, otherFound, otherPasses⟩ :=
    List.mem_filterMap.mp secondMember
  have same : one = other := by
    simp only [List.mem_cons, List.not_mem_nil, or_false, or_self]
      at found otherFound
    rw [found, otherFound]
  rw [same, otherPasses] at passes
  rw [Option.some.inj passes]

/-- Readings of one sensor, all in lower case and all in upper case. -/
theorem aggregates_spelled_upper :
    (aggregate epoch counting everything .oneMinute
        [upperReading, upperReading] fun _ => none).tables =
      (aggregate epoch counting everything .oneMinute
        [lowerReading, lowerReading] fun _ => none).tables := by
  have lower : (aggregate epoch counting everything .oneMinute
      [lowerReading, lowerReading] fun _ => none).raised = none := by
    decide +kernel
  have upper : (aggregate epoch counting everything .oneMinute
      [upperReading, upperReading] fun _ => none).raised = none := by
    decide +kernel
  exact ((aggregates_spelled epoch counting everything .oneMinute
    [lowerReading, lowerReading] fun _ => none).2 _
    (.cons upperReading_respelled (.cons upperReading_respelled .nil))
    (aggregate_unraised lower).1 (uniform_pair _ _ _ _)
    (aggregate_unraised upper).1 (uniform_pair _ _ _ _)).2

end IndustryFlow.Aggregations
